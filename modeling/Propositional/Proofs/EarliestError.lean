import Propositional.Proofs.TextReading

/-!
# Errors come as early as they can

Tokens are viable while something can still be put behind them that makes an expression of them. A
source of tokens is read lazily: a run is given the tokens that the source has, and what happens when
it is asked for more. The yard goes on as long as what it has read is viable, and refuses the first
token that ends this, before it asks for another one.

* `Viable` — some continuation is an expression; `viable_iff_isSome` decides it.
* `ReadToEnd` — every token before the end is taken, and then the end is met.
* `RefusedAfter` — a token is refused, and nothing behind it has any say.
* `cls_mem_of_failed` — where the tokens of a scan that fails come from.
* `refuses_first_nonviable` — which of these happens, for tokens and for texts.
-/

namespace Propositional

/-! ## Viable tokens -/

/-- Some continuation makes an expression of the tokens. -/
def Viable (tokens : List Token) : Prop := ∃ more, IsExpression (tokens ++ more)

theorem Viable.of_isPrefix {taken tokens : List Token} (h : Viable tokens) (hp : taken <+: tokens) :
    Viable taken := by
  obtain ⟨rest, rfl⟩ := hp
  obtain ⟨more, hmore⟩ := h
  exact ⟨rest ++ more, by rwa [← List.append_assoc]⟩

namespace Outline

/-- Closing parentheses complete what waits for nothing else. -/
theorem accepts_closings (c : ClosingToken) :
    ∀ d, (⟨false, d⟩ : Outline).Accepts (List.replicate d c.val)
  | 0 => accepts_nil.mpr rfl
  | d + 1 => accepts_cons.mpr ⟨_, step_closing d c, accepts_closings c d⟩

/-- Whatever was begun can be completed: by a name, if an operand has to come next, and by closing
the groups. -/
theorem exists_accepts : ∀ s : Outline, ∃ more, s.Accepts more
  | ⟨expects, d⟩ => by
    let n : NameToken := ⟨⟨.variableName, "p", 0, 1⟩, rfl⟩
    let c : ClosingToken := ⟨⟨.closeParenthesis, ")", 0, 1⟩, rfl⟩
    cases expects with
    | false => exact ⟨_, accepts_closings c d⟩
    | true => exact ⟨_, accepts_cons.mpr ⟨_, step_name d n, accepts_closings c d⟩⟩

end Outline

/-- **Tokens are viable as long as the outline goes on.** -/
theorem viable_iff_isSome {tokens : List Token} :
    Viable tokens ↔ (tokens.foldlM Outline.step .start).isSome := by
  rw [Option.isSome_iff_exists]
  constructor
  · rintro ⟨more, h⟩
    obtain ⟨s, hs, -⟩ := Outline.accepts_append.mp (Outline.accepts_iff.mpr h)
    exact ⟨s, hs⟩
  · rintro ⟨s, hs⟩
    obtain ⟨more, hmore⟩ := s.exists_accepts
    exact ⟨more, Outline.accepts_iff.mp (Outline.accepts_append.mpr ⟨s, hs, hmore⟩)⟩

instance : DecidablePred Viable := fun _ => decidable_of_iff _ viable_iff_isSome.symm

/-! ## Tokens that are taken, and the first that is not -/

namespace Yard

theorem viable_of_advance {y : Yard} {tokens : List Token} (h : start.advance tokens = .ok y) :
    Viable tokens := by
  rw [viable_iff_isSome, ← outline_start, outline_of_advance h]
  rfl

/-- What is refused cannot be continued. -/
theorem not_viable_of_refused {y : Yard} {taken : List Token} {t : Token} {e : ReadError}
    (h : start.advance taken = .ok y) (ht : t.Settled) (he : y.step t = .error e) :
    ¬ Viable (taken ++ [t]) := by
  intro hviable
  rw [viable_iff_isSome, List.foldlM_append, ← outline_start, outline_of_advance h] at hviable
  obtain ⟨s, hs⟩ := Option.isSome_iff_exists.mp hviable
  have hstep : y.outline.step t = some s := by
    simpa [List.foldlM_cons] using hs
  obtain ⟨y', hy'⟩ := exists_step ht hstep
  rw [step_of_steps hy'] at he
  cases he

end Yard

/-- Every token before the end is taken. Then the token that marks the end is met, or the source is
asked for more than it has. -/
def ReadToEnd (tokens : List Token) : Prop :=
  ∃ y, Yard.start.advance (beforeEnd tokens) = .ok y ∧
    ∀ after, Yard.start.run after tokens = match tokens.find? (·.role = .finish) with
      | some t => y.finish t.stop
      | none => after y

/-- The token is refused when it comes, and the ones before it have been taken. It makes no
difference which tokens come behind it, and what happens when the source is asked for more. -/
structure RefusedAfter (before : List Token) (t : Token) (e : ParseError) : Prop where
  refused : ∃ y, Yard.start.advance before = .ok y ∧ y.step t = .error (.parse e)
  early : ∀ after rest, Yard.start.run after (before ++ t :: rest) = .error (.parse e)

/-- The first token that cannot be continued is refused. -/
structure RefusedFirst (before : List Token) (t : Token) (e : ParseError) : Prop where
  viable : ∀ taken, taken <+: before → Viable taken
  not_viable : ¬ Viable (before ++ [t])
  refused : RefusedAfter before t e

namespace Yard

/-- **Settled tokens are all taken, or the first that is not viable is refused.** -/
theorem advance_or_refusedFirst {tokens : List Token} (hsettled : ∀ t ∈ tokens, t.Settled)
    (hfinish : ∀ t ∈ tokens, t.role ≠ .finish) : (∃ y, start.advance tokens = .ok y) ∨
      ∃ before t rest e, tokens = before ++ t :: rest ∧ RefusedFirst before t e := by
  rcases advance_cases tokens start with h | ⟨before, t, rest, y, e, rfl, hy, he⟩
  · exact .inl h
  · have ht : t ∈ before ++ t :: rest := by simp
    obtain ⟨e, rfl⟩ := exists_parse_error (hsettled t ht) he
    refine .inr ⟨before, t, rest, e, rfl, fun taken hp => (viable_of_advance hy).of_isPrefix hp,
      not_viable_of_refused hy (hsettled t ht) he, ⟨y, hy, he⟩, fun after rest => ?_⟩
    rw [run_append hy, run_refused (hfinish t ht) he]

theorem readToEnd_of_advance {y : Yard} {tokens : List Token}
    (h : start.advance (beforeEnd tokens) = .ok y) : ReadToEnd tokens := by
  refine ⟨y, h, fun after => ?_⟩
  calc start.run after tokens
      = start.run after (beforeEnd tokens ++ tokens.dropWhile (·.role ≠ .finish)) := by
        rw [beforeEnd_append_drop]
    _ = y.run after (tokens.dropWhile (·.role ≠ .finish)) := run_append h _
    _ = _ := run_dropWhile after y tokens

end Yard

theorem RefusedFirst.not_viable_of_isPrefix {before rest tokens : List Token} {t : Token}
    {e : ParseError} (h : RefusedFirst before t e) (htokens : tokens = before ++ t :: rest) :
    ¬ Viable tokens :=
  fun hv => h.not_viable (hv.of_isPrefix ⟨rest, by simp [htokens]⟩)

/-! ## Texts that cannot be scanned -/

/-- The tokens of a scan that fails are of the classes of the language. -/
theorem cls_mem_of_failed {classes : List TokenClass} {e : LexError} :
    ∀ (cs : List Char) (skip place : Nat), (scanFrom classes skip place cs).ending = .failed e →
      ∀ t ∈ (scanFrom classes skip place cs).lexemes, t.cls ∈ classes
  | [], skip, place, h => by
    rw [scanFrom] at h
    cases h
  | c :: cs, skip + 1, place, h => by
    rw [scanFrom] at h ⊢
    exact cls_mem_of_failed cs skip (place + 1) h
  | c :: cs, 0, place, h => by
    cases hmatch : firstMatch classes (c :: cs) with
    | error u => simp [scanFrom, hmatch]
    | ok found =>
      cases found with
      | none => simp [scanFrom, hmatch]
      | some found =>
        obtain ⟨d, n⟩ := found
        obtain ⟨-, front, back, hclasses, -⟩ := exists_of_firstMatch hmatch
        by_cases hn : n = 0
        · simp [scanFrom, hmatch, hn]
        · simp only [scanFrom, hmatch, hn, if_false, Scan.cons] at h ⊢
          intro t ht
          rcases List.mem_cons.mp ht with rfl | ht
          · simp [hclasses]
          · exact cls_mem_of_failed cs (n - 1) (place + 1) h t ht

/-- The tokens of a language are settled, and none of them marks the end. -/
def Lexer.Plain (lexer : Lexer) : Prop :=
  ∀ t : Token, t.cls ∈ lexer.classes → t.Settled ∧ t.role ≠ .finish

theorem Lexer.Standard.plain {lexer : Lexer} (h : lexer.Standard) : lexer.Plain := by
  intro t ht
  have hknown := h.known t.cls ht
  exact ⟨⟨role_ne_unbound_of_mem hknown, fun op hop => h.coherent.side op ⟨t.cls, ht, hop⟩⟩,
    role_ne_finish_of_mem hknown⟩

/-- **A text that cannot be scanned to its end** is refused at the first token that is not viable,
and if there is none, at the place where the scan fails. -/
theorem Lexer.Plain.read_failed {lexer : Lexer} (h : lexer.Plain) {text : String} {e : LexError}
    (hend : (lexer.scan text).ending = .failed e) :
    (Viable (lexer.scan text).tokens ∧ lexer.read text = .error (.lex e)) ∨
      ∃ before t rest e', (lexer.scan text).tokens = before ++ t :: rest ∧
        RefusedFirst before t e' ∧ lexer.read text = .error (.parse e') := by
  have hclasses : ∀ t ∈ (lexer.scan text).tokens, t.cls ∈ lexer.classes := fun t ht =>
    cls_mem_of_failed text.toList 0 0 hend t (List.mem_filter.mp ht).1
  have hread : ∀ e', Yard.start.run (fun _ => .error (.lex e)) (lexer.scan text).tokens = .error e' →
      lexer.read text = .error e' := by
    intro e' hrun
    have hscan : Polish.ofScan (lexer.scan text) = .error e' := by
      simp only [Polish.ofScan, hend]
      exact hrun
    simp only [Lexer.read, hscan]
    rfl
  rcases Yard.advance_or_refusedFirst (fun t ht => (h t (hclasses t ht)).1)
    (fun t ht => (h t (hclasses t ht)).2) with ⟨y, hy⟩ | ⟨before, t, rest, e', htokens, hfirst⟩
  · refine .inl ⟨Yard.viable_of_advance hy, hread _ ?_⟩
    rw [← List.append_nil (lexer.scan text).tokens]
    exact Yard.run_append hy []
  · refine .inr ⟨before, t, rest, e', htokens, hfirst, hread _ ?_⟩
    rw [htokens]
    exact hfirst.refused.early _ rest

/-- **Errors come as early as they can, and the first one in reading order wins.** If all that stands
before the end is viable, it is read to the end; otherwise the first token that is not viable is
refused, whatever comes behind it. A text whose scan fails meets the error of the scan exactly if the
tokens before it are viable, and is refused at the first token that is not viable otherwise. -/
theorem refuses_first_nonviable :
    (∀ tokens : List Token, (∀ t ∈ beforeEnd tokens, t.Settled) →
      ((∀ taken, taken <+: beforeEnd tokens → Viable taken) → ReadToEnd tokens) ∧
      ((∃ taken, taken <+: beforeEnd tokens ∧ ¬ Viable taken) → ∃ before t rest e,
        beforeEnd tokens = before ++ t :: rest ∧ RefusedFirst before t e)) ∧
    (∀ (lexer : Lexer) (text : String) (e : LexError), lexer.Plain →
      (lexer.scan text).ending = .failed e →
        (lexer.read text = .error (.lex e) ↔ Viable (lexer.scan text).tokens) ∧
        (¬ Viable (lexer.scan text).tokens → ∃ before t rest e',
          (lexer.scan text).tokens = before ++ t :: rest ∧ RefusedFirst before t e' ∧
            lexer.read text = .error (.parse e'))) ∧
    Lexer.default.Plain ∧ Lexer.core.Plain := by
  refine ⟨fun tokens hsettled => ?_, fun lexer text e hplain hend => ?_,
    Lexer.standard_default.plain, Lexer.standard_core.plain⟩
  · have hfinish : ∀ t ∈ beforeEnd tokens, t.role ≠ .finish := fun t ht =>
      Yard.role_ne_finish_of_mem ht
    rcases Yard.advance_or_refusedFirst hsettled hfinish with ⟨y, hy⟩ | ⟨before, t, rest, e, heq, h⟩
    · refine ⟨fun _ => Yard.readToEnd_of_advance hy, fun ⟨taken, hp, hnot⟩ => ?_⟩
      exact absurd ((Yard.viable_of_advance hy).of_isPrefix hp) hnot
    · refine ⟨fun hall => ?_, fun _ => ⟨before, t, rest, e, heq, h⟩⟩
      exact absurd (hall _ (List.prefix_refl _)) (h.not_viable_of_isPrefix heq)
  · rcases hplain.read_failed hend with ⟨hviable, hread⟩ | ⟨before, t, rest, e', heq, h, hread⟩
    · exact ⟨iff_of_true hread hviable, fun hnot => absurd hviable hnot⟩
    · refine ⟨iff_of_false ?_ (h.not_viable_of_isPrefix heq),
        fun _ => ⟨before, t, rest, e', heq, h, hread⟩⟩
      rw [hread]
      exact nofun

/-- The implication `A -> B -> C` is read to its end, and without its first name it is refused at
once. A question mark is met if nothing is wrong before it. -/
theorem refuses_first_nonviable_arrow :
    ReadToEnd arrowTokens ∧
    (∃ before t rest e, beforeEnd arrowTokens.tail = before ++ t :: rest ∧ RefusedFirst before t e) ∧
    Lexer.default.read "p & ?" = .error (.lex (.unrecognized '?' 4)) ∧
    ∃ e, Lexer.default.read "p & ) ?" = .error (.parse e) := by
  have hsides : ∀ t ∈ beforeEnd arrowTokens, t.role = .identifier ∨
      t.role = .operator ⟨.implies, 1, .right⟩ := by decide
  have hsettled : ∀ t ∈ beforeEnd arrowTokens, t.Settled := by
    intro t ht
    rcases hsides t ht with h | h
    · exact ⟨by simp [h], by simp [h]⟩
    · exact ⟨by simp [h], by simp [h]⟩
  have hviable : Viable (beforeEnd arrowTokens) := by decide
  have hscan₁ : (Lexer.default.scan "p & ?").ending = .failed (.unrecognized '?' 4) := by decide
  have hscan₂ : (Lexer.default.scan "p & ) ?").ending = .failed (.unrecognized '?' 6) := by decide
  have hplain := refuses_first_nonviable.2.2.1
  refine ⟨(refuses_first_nonviable.1 _ hsettled).1 fun taken hp => hviable.of_isPrefix hp,
    (refuses_first_nonviable.1 _ ?_).2 ⟨_, List.prefix_refl _, by decide⟩,
    (refuses_first_nonviable.2.1 _ _ _ hplain hscan₁).1.mpr (by decide), ?_⟩
  · intro t ht
    exact hsettled t (List.mem_of_mem_tail ht)
  · obtain ⟨_, _, _, e, _, _, h⟩ := (refuses_first_nonviable.2.1 _ _ _ hplain hscan₂).2 (by decide)
    exact ⟨e, h⟩

end Propositional
