import Propositional.Proofs.YardRuns

/-!
# What the shunting yard accepts

The yard goes on exactly where its outline does, whatever the precedences and sides of the
operators are.

* `Yard.Steps.outline`, `Yard.exists_step` — one token: the yard takes it when the outline does.
* `Yard.run_ok`, `Yard.run_accepts`, `Yard.run_error` — a sequence of tokens, up to its end.
* `ofTokens_ok_iff_isExpression` — the yard accepts the expressions, and refuses all else with a
  parse error.
-/

namespace Propositional

/-- An operator token has a meaning and groups to one of the sides. Other tokens are settled. -/
structure Token.Settled (t : Token) : Prop where
  bound : t.role ≠ .unbound
  side : ∀ op, t.role = .operator op → op.associativity = .left ∨ op.associativity = .right

namespace Yard

def outline (y : Yard) : Outline := ⟨y.expectsOperand, groupCount y.pending⟩

@[simp] theorem outline_start : start.outline = .start := rfl

/-! ## One token -/

theorem Steps.outline {y y' : Yard} {t : Token} (h : Steps y t y') :
    y.outline.step t = some y'.outline := by
  cases h with
  | name t h => simp only [Yard.outline, h, Outline.step_name]
  | opening t h => simp only [Yard.outline, h, Outline.step_opening, groupCount_group]
  | prefixed u h => simp only [Yard.outline, h, Outline.step_prefix, groupCount_operator]
  | infixed b h left emitted hr =>
    obtain ⟨held, hp, -⟩ := exists_of_release hr
    simp only [Yard.outline, h, hp, Outline.step_infix, groupCount_operators_append,
      groupCount_operator]
  | closing c h held o rest hp =>
    simp only [Yard.outline, h, hp, groupCount_operators_append, groupCount_group,
      Outline.step_closing]

/-- Where the outline goes on, the yard does. -/
theorem exists_step {y : Yard} {t : Token} {s : Outline} (ht : t.Settled)
    (h : y.outline.step t = some s) : ∃ y', Steps y t y' := by
  cases he : y.expectsOperand with
  | true =>
    rw [outline, he] at h
    rcases Outline.step_expecting h with ⟨n, rfl, -⟩ | ⟨o, rfl, -⟩ | ⟨u, rfl, -⟩
    · exact ⟨_, .name n he⟩
    · exact ⟨_, .opening o he⟩
    · exact ⟨_, .prefixed u he⟩
  | false =>
    rw [outline, he] at h
    rcases Outline.step_not_expecting h with ⟨b, rfl, -⟩ | ⟨c, rfl, hd, -⟩
    · obtain ⟨⟨left, emitted⟩, hr⟩ :=
        exists_release b.token (ht.side b.op b.role_eq) y.pending y.emitted
      exact ⟨_, .infixed b he left emitted hr⟩
    · obtain ⟨held, o, rest, hp⟩ := exists_group hd
      exact ⟨_, .closing c he held o rest hp⟩

/-- A settled token is refused with a parse error only. -/
theorem exists_parse_error {y : Yard} {t : Token} {e : ReadError} (ht : t.Settled)
    (h : y.step t = .error e) : ∃ e', e = .parse e' := by
  unfold step at h
  split at h
  · split at h
    · cases h
    · exact ⟨_, (Except.error.inj h).symm⟩
  · split at h
    · cases h
    · exact ⟨_, (Except.error.inj h).symm⟩
  · unfold close at h
    split at h
    · exact ⟨_, (Except.error.inj h).symm⟩
    · split at h
      · exact ⟨_, (Except.error.inj h).symm⟩
      · exact ⟨_, (Except.error.inj h).symm⟩
      · cases h
  · rename_i op hr
    split at h
    · split at h
      · cases h
      · exact ⟨_, (Except.error.inj h).symm⟩
    · split at h
      · exact ⟨_, (Except.error.inj h).symm⟩
      · obtain ⟨r, hrel⟩ := exists_release t (ht.side op hr) y.pending y.emitted
        rw [hrel] at h
        cases h
  · exact absurd ‹_› ht.bound
  all_goals exact ⟨_, (Except.error.inj h).symm⟩

/-! ## The end of the tokens -/

/-- What waits goes to the output if it is operators alone. -/
theorem finish_operators {y : Yard} {held : List (Operator × Token)} (place : Int)
    (he : y.expectsOperand = false) (hp : y.pending = operators held) :
    y.finish place = .ok ⟨y.emitted.reverse ++ held.map Prod.snd, y.names⟩ := by
  simp only [finish, he, hp, drain_operators]
  rfl

/-- The end can come when everything that was begun is complete. -/
theorem finish_of_complete {y : Yard} (place : Int) (h : y.outline = .complete) :
    ∃ p, y.finish place = .ok p := by
  obtain ⟨he, hd⟩ := Outline.mk.inj h
  obtain ⟨held, hp⟩ := exists_operators hd
  exact ⟨_, finish_operators place he hp⟩

/-- Otherwise the end is refused. -/
theorem finish_of_not_complete {y : Yard} (place : Int) (h : y.outline ≠ .complete) :
    ∃ e, y.finish place = .error (.parse e) := by
  unfold finish
  split
  · rename_i he
    have hgroups : groupCount y.pending ≠ 0 := fun hd => h (by simp [outline, he, hd, Outline.complete])
    obtain ⟨held, o, rest, hp⟩ := exists_group hgroups
    exact ⟨.neverClosed o, by rw [hp, drain_group]; rfl⟩
  · exact ⟨_, rfl⟩
  · exact ⟨_, rfl⟩
  · split <;> exact ⟨_, rfl⟩

theorem complete_of_finish {y : Yard} {place : Int} {p : Polish} (h : y.finish place = .ok p) :
    y.outline = .complete := by
  refine Classical.byContradiction fun hc => ?_
  obtain ⟨e, he⟩ := finish_of_not_complete place hc
  rw [he] at h
  cases h

theorem finish_error {y : Yard} {place : Int} {e : ReadError} (h : y.finish place = .error e) :
    ∃ e', e = .parse e' := by
  by_cases hc : y.outline = .complete
  · obtain ⟨p, hf⟩ := finish_of_complete place hc
    rw [hf] at h
    cases h
  · obtain ⟨e', he⟩ := finish_of_not_complete place hc
    exact ⟨e', Except.error.inj (h.symm.trans he)⟩

/-- At an end that is not refused only operators wait, and they go to the output. -/
theorem eq_of_finish {y : Yard} {place : Int} {p : Polish} (h : y.finish place = .ok p) :
    y.expectsOperand = false ∧ ∃ held, y.pending = operators held ∧
      p = ⟨y.emitted.reverse ++ held.map Prod.snd, y.names⟩ := by
  obtain ⟨he, hd⟩ := Outline.mk.inj (complete_of_finish h)
  obtain ⟨held, hp⟩ := exists_operators hd
  rw [finish_operators place he hp] at h
  exact ⟨he, held, hp, (Except.ok.inj h).symm⟩

/-! ## Sequences of tokens -/

/-- The outline follows the yard through all tokens that are taken. -/
theorem outline_of_advance {y y' : Yard} {tokens : List Token} (h : y.advance tokens = .ok y') :
    tokens.foldlM Outline.step y.outline = some y'.outline := by
  have hnone : [].foldlM Outline.step y.outline = some y.outline := rfl
  refine advance_induction
    (motive := fun z read => read.foldlM Outline.step y.outline = some z.outline) ?_ hnone h
  intro z z' t read hread ht
  rw [List.foldlM_append, hread]
  show [t].foldlM Outline.step z.outline = _
  rw [List.foldlM_cons, ht.outline]
  rfl

/-- A sequence that the yard accepts is accepted by its outline. -/
theorem run_ok {p : Polish} {tokens : List Token} {y : Yard} (h : y.run finishOpen tokens = .ok p) :
    y.outline.Accepts (beforeEnd tokens) := by
  obtain ⟨y', place, hadvance, hfinish⟩ := exists_advance_of_run h
  have houtline := outline_of_advance hadvance
  rwa [complete_of_finish hfinish] at houtline

/-- Settled tokens that the outline accepts are accepted by the yard. -/
theorem run_accepts {tokens : List Token} {y : Yard} (hsettled : ∀ t ∈ beforeEnd tokens, t.Settled)
    (h : y.outline.Accepts (beforeEnd tokens)) : ∃ p, y.run finishOpen tokens = .ok p := by
  rcases run_cases y tokens with ⟨y', place, hadvance, hrun⟩ |
    ⟨taken, t, rest, y', e, heq, hadvance, ht, -⟩
  · have hcomplete := Option.some.inj ((outline_of_advance hadvance).symm.trans h)
    obtain ⟨p, hp⟩ := finish_of_complete place hcomplete
    exact ⟨p, hrun.trans hp⟩
  · -- the outline goes on with the token that is refused
    rw [heq] at h hsettled
    obtain ⟨s, hs, hrest⟩ := Outline.accepts_append.mp h
    rw [outline_of_advance hadvance] at hs
    cases hs
    obtain ⟨s', hstep, -⟩ := Outline.accepts_cons.mp hrest
    obtain ⟨z, hz⟩ := exists_step (hsettled t (by simp)) hstep
    rw [step_of_steps hz] at ht
    cases ht

/-- Settled tokens are refused with a parse error only. -/
theorem run_error {tokens : List Token} {y : Yard} {e : ReadError}
    (hsettled : ∀ t ∈ beforeEnd tokens, t.Settled) (h : y.run finishOpen tokens = .error e) :
    ∃ e', e = .parse e' := by
  rcases run_cases y tokens with ⟨y', place, -, hrun⟩ | ⟨taken, t, rest, y', e', heq, -, ht, hrun⟩
  · exact finish_error (hrun.symm.trans h)
  · obtain ⟨e'', rfl⟩ := exists_parse_error (hsettled t (by simp [heq])) ht
    exact ⟨e'', Except.error.inj (h.symm.trans hrun)⟩

end Yard

/-- An accepted sequence of tokens is an expression up to its end. -/
theorem isExpression_of_ofTokens {tokens : List Token} {p : Polish}
    (h : Polish.ofTokens tokens = .ok p) : IsExpression (beforeEnd tokens) :=
  Outline.accepts_iff.mp (Yard.run_ok h)

/-- **The yard accepts exactly the grammar.** Whatever the precedences, and to whichever sides the
operators group, reading succeeds exactly on the expressions and fails with a parse error on all
other sequences. -/
theorem ofTokens_ok_iff_isExpression (tokens : List Token)
    (hsettled : ∀ t ∈ beforeEnd tokens, t.Settled) :
    ((∃ p, Polish.ofTokens tokens = .ok p) ↔ IsExpression (beforeEnd tokens)) ∧
      (¬ IsExpression (beforeEnd tokens) → ∃ e, Polish.ofTokens tokens = .error (.parse e)) := by
  have hiff : (∃ p, Polish.ofTokens tokens = .ok p) ↔ IsExpression (beforeEnd tokens) := by
    constructor
    · rintro ⟨p, h⟩
      exact isExpression_of_ofTokens h
    · intro h
      exact Yard.run_accepts hsettled (Outline.accepts_iff.mpr h)
  refine ⟨hiff, fun hnot => ?_⟩
  cases h : Polish.ofTokens tokens with
  | ok p => exact absurd (hiff.mp ⟨p, h⟩) hnot
  | error e =>
    obtain ⟨e', rfl⟩ := Yard.run_error hsettled h
    exact ⟨e', rfl⟩

/-- An implication that groups to the right. -/
def arrowClass : TokenClass :=
  TokenClass.unboundOperator.specialise "Arrow"
    { kind := some (some .implies), spellings := some ["->"], associativity := some .right }

/-- The tokens of `A -> B -> C`. -/
def arrowTokens : List Token :=
  [⟨.variableName, "A", 0, 1⟩, ⟨arrowClass, "->", 2, 4⟩, ⟨.variableName, "B", 5, 6⟩,
    ⟨arrowClass, "->", 7, 9⟩, ⟨.variableName, "C", 10, 11⟩, endToken 11]

theorem isExpression_arrowTokens :
    (∀ t ∈ beforeEnd arrowTokens, t.Settled) ∧ IsExpression (beforeEnd arrowTokens) := by
  have hsettled : ∀ t ∈ beforeEnd arrowTokens, t.Settled := by
    have hall : ∀ t ∈ beforeEnd arrowTokens, t.role = .identifier ∨
        t.role = .operator ⟨.implies, 1, .right⟩ := by decide
    intro t ht
    rcases hall t ht with h | h
    · exact ⟨by simp [h], by simp [h]⟩
    · exact ⟨by simp [h], by simp [h]⟩
  exact ⟨hsettled, (ofTokens_ok_iff_isExpression arrowTokens hsettled).1.mp ⟨_, rfl⟩⟩

end Propositional
