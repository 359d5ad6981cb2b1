import Mathlib.Data.List.Basic
import Propositional.Proofs.Cursors

/-!
# The variables of the source and of its formula

While it is read, the source gives its identifiers from left to right; the formula gives its
variables from the top down. The yard moves no operand, so these are the same names in one order.

* `identifiers_of_signs`, `Formula.occurrences_of_signs` — the identifiers of some tokens and the
  variables of a formula are among their signs.
* `Reading.names_of_ofTokens` — both orders, for tokens that are accepted.
* `variables_collected` — the names that are collected are those of the formula, and either list
  gives the same rows.
-/

namespace Propositional

/-! ## Names among signs -/

/-- The name that a sign adds to the variables. -/
def Sign.name? : Sign → Option String
  | name x => some x
  | connective _ => none

theorem Formula.occurrences_of_signs (f : Formula) : f.signs.filterMap Sign.name? = f.occurrences := by
  induction f with
  | var x => rfl
  | unary k f ih =>
    rw [signs, List.filterMap_cons_none rfl, ih]
    rfl
  | binary k l r ihl ihr =>
    rw [signs, List.filterMap_append, List.filterMap_cons_none rfl, ihl, ihr]
    rfl
  | foreign v => rfl

theorem Token.bind_sign? (t : Token) : t.sign?.bind Sign.name? = t.name? := by
  unfold Token.sign? Token.name?
  cases t.role <;> rfl

theorem identifiers_of_signs (tokens : List Token) :
    (signs tokens).filterMap Sign.name? = identifiers tokens := by
  unfold signs identifiers
  rw [List.filterMap_filterMap]
  exact List.filterMap_congr fun t _ => t.bind_sign?

/-! ## Accepted tokens -/

/-- **The identifiers before the end are the variables of the formula that is read, one after the
other**, and the names that are collected cover it. -/
theorem Reading.names_of_ofTokens {tokens : List Token} {r : Reading}
    (h : Reading.ofTokens tokens = .ok r) :
    r.names = .ofList (identifiers (beforeEnd tokens)) ∧
    r.formula.occurrences = identifiers (beforeEnd tokens) ∧
    r.formula.CoveredBy r.names.names := by
  obtain ⟨p, hp, -⟩ := exists_of_bind_eq_ok h
  obtain ⟨f, hf, hcovered, hr⟩ := Reading.exists_of_ofTokens hp
  rw [h, Except.ok.injEq] at hr
  subst hr
  refine ⟨names_ofTokens hp, ?_, hcovered⟩
  obtain ⟨y, place, hadvance, hfinish⟩ := Yard.exists_advance_of_run hp
  obtain ⟨f', hf', hsigns⟩ := Yard.exists_formula hadvance hfinish
  rw [hf, Except.ok.injEq] at hf'
  subst hf'
  rw [← f.occurrences_of_signs, hsigns, identifiers_of_signs]

/-- **The names that are collected while reading are the variables of the formula**, in the same
order: the identifiers before the end, each where it first occurs. It makes no difference how the
operators bind, and to which sides they group. So the rows of the formula over the names that were
collected are those over its own variables, and there are such rows unless the limit is exceeded. -/
theorem variables_collected {tokens : List Token} {r : Reading}
    (h : Reading.ofTokens tokens = .ok r) :
    r.names = r.formula.names ∧
    r.names.names = (identifiers (beforeEnd tokens)).eraseDups ∧
    (∀ limit, buildRows r.formula none limit = buildRows r.formula (some r.names.names) limit) ∧
    ∀ limit : Int, r.names.names.length ≤ limit →
      ∃ rows, buildRows r.formula none limit = .ok rows ∧
        rows.length = 2 ^ r.names.names.length := by
  obtain ⟨hnames, hoccurrences, hcovered⟩ := Reading.names_of_ofTokens h
  have hsame : r.names = r.formula.names := by
    rw [Formula.names_eq, hoccurrences, hnames]
  refine ⟨hsame, ?_, ?_, ?_⟩
  · rw [hnames, NameSet.names_ofList]
  · intro limit
    rw [hsame]
    rfl
  · intro limit hlimit
    obtain ⟨rows, hrows, hlength, -⟩ := hcovered.exists_rows
    refine ⟨rows, ?_, hlength⟩
    rw [hsame] at hlimit hrows
    rw [buildRows_of_le hlimit]
    show (allRows r.formula r.formula.names.names).mapError _ = _
    rw [hrows]
    rfl

/-- The tokens of `! B & (A | B)`, where the prefix operator binds most loosely. -/
def repeatedTokens : List Token :=
  [⟨looseClass, "!", 0, 1⟩, ⟨.variableName, "B", 2, 3⟩, ⟨leftClass, "&", 4, 5⟩,
    ⟨.openParenthesis, "(", 6, 7⟩, ⟨.variableName, "A", 7, 8⟩, ⟨rightClass, "|", 9, 10⟩,
    ⟨.variableName, "B", 11, 12⟩, ⟨.closeParenthesis, ")", 12, 13⟩, endToken 13]

theorem variables_collected_repeated : ∃ r, Reading.ofTokens repeatedTokens = .ok r ∧
    r.names.names = ["B", "A"] ∧ r.formula.names = r.names ∧
    ∃ rows, rows.length = 4 ∧ buildRows r.formula none 2 = .ok rows ∧
      buildRows r.formula (some ["B", "A"]) 2 = .ok rows := by
  have h : Reading.ofTokens repeatedTokens = .ok _ := rfl
  obtain ⟨hsame, hlist, hrows, hbuild⟩ := variables_collected h
  have hnames : (identifiers (beforeEnd repeatedTokens)).eraseDups = ["B", "A"] := by decide
  rw [hnames] at hlist
  obtain ⟨rows, hbuilt, hlength⟩ := hbuild 2 (by rw [hlist]; decide)
  have hgiven := hrows 2
  rw [hlist] at hgiven hlength
  exact ⟨_, h, hlist, hsame.symm, rows, hlength, hbuilt, hgiven ▸ hbuilt⟩

end Propositional
