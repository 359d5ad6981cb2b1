import Propositional.Proofs.YardSteps

/-!
# Runs of the shunting yard

What a run does with its tokens does not depend on what comes behind them: a token is either taken,
and the run goes on, or refused, and the run ends there.

* `Yard.advance` — the yard behind some tokens. `Yard.advance_cases`: all of them are taken, or there
  is a first one that is refused.
* `Yard.advance_induction` — what every token that is taken preserves holds after all of them.
* `Yard.run_append`, `Yard.run_refused` — a run behind tokens that are taken, and at one that is not.
* `Yard.run_cases` — a run comes to its end, or a token before it is refused.
-/

namespace Propositional

namespace Yard

/-! ## Tokens that are taken -/

/-- The yard after some tokens, none of which marks the end. -/
def advance (y : Yard) (tokens : List Token) : Except ReadError Yard := tokens.foldlM step y

theorem advance_cons {y y' : Yard} {t : Token} (h : Steps y t y') (rest : List Token) :
    y.advance (t :: rest) = y'.advance rest := by
  simp only [advance, List.foldlM_cons, step_of_steps h]
  rfl

theorem advance_append {y y' : Yard} {tokens : List Token} (h : y.advance tokens = .ok y')
    (rest : List Token) : y.advance (tokens ++ rest) = y'.advance rest := by
  unfold advance at *
  rw [List.foldlM_append, h]
  rfl

theorem advance_snoc {y y' y'' : Yard} {t : Token} {tokens : List Token}
    (h : y.advance tokens = .ok y') (ht : Steps y' t y'') :
    y.advance (tokens ++ [t]) = .ok y'' := by
  rw [advance_append h, advance_cons ht]
  rfl

/-- If tokens are taken, the first of them is, and then the others. -/
theorem exists_steps_of_advance {y y' : Yard} {t : Token} {tokens : List Token}
    (h : y.advance (t :: tokens) = .ok y') : ∃ z, Steps y t z ∧ z.advance tokens = .ok y' := by
  cases hs : y.step t with
  | error e =>
    simp only [advance, List.foldlM_cons, hs] at h
    cases h
  | ok z =>
    have hz := step_eq_ok_iff.mp hs
    exact ⟨z, hz, (advance_cons hz tokens).symm.trans h⟩

/-- Tokens are all taken, or one of them is the first that is refused. -/
theorem advance_cases : ∀ (tokens : List Token) (y : Yard), (∃ y', y.advance tokens = .ok y') ∨
    ∃ taken t rest y' e, tokens = taken ++ t :: rest ∧ y.advance taken = .ok y' ∧
      y'.step t = .error e
  | [], y => .inl ⟨y, rfl⟩
  | t :: tokens, y => by
    cases hs : y.step t with
    | error e => exact .inr ⟨[], t, tokens, y, e, rfl, rfl, hs⟩
    | ok z =>
      have hz := step_eq_ok_iff.mp hs
      rcases advance_cases tokens z with ⟨y', h⟩ | ⟨taken, u, rest, y', e, rfl, h, hu⟩
      · exact .inl ⟨y', (advance_cons hz tokens).trans h⟩
      · exact .inr ⟨t :: taken, u, rest, y', e, rfl, (advance_cons hz taken).trans h, hu⟩

/-- What holds before any token and is preserved by each one that is taken holds after all of
them. The statement may speak of the tokens that were read before. -/
theorem advance_induction {motive : Yard → List Token → Prop}
    (hstep : ∀ {y y' : Yard} {t : Token} {read : List Token},
      motive y read → Steps y t y' → motive y' (read ++ [t])) {y' : Yard} :
    ∀ {tokens : List Token} {y : Yard} {read : List Token}, motive y read →
      y.advance tokens = .ok y' → motive y' (read ++ tokens)
  | [], y, read, hy, h => by
    cases h
    rwa [List.append_nil]
  | t :: tokens, y, read, hy, h => by
    obtain ⟨z, hz, hrest⟩ := exists_steps_of_advance h
    have hafter := advance_induction hstep (hstep hy hz) hrest
    rwa [List.append_assoc] at hafter

/-! ## Runs -/

section

variable {after : Yard → Except ReadError Polish}

/-- Behind tokens that are taken, a run goes on with the rest. -/
theorem run_append {y' : Yard} : ∀ {taken : List Token} {y : Yard}, y.advance taken = .ok y' →
    ∀ rest, y.run after (taken ++ rest) = y'.run after rest
  | [], y, h, rest => by
    cases h
    rfl
  | t :: taken, y, h, rest => by
    obtain ⟨z, hz, htaken⟩ := exists_steps_of_advance h
    rw [List.cons_append, run_cons hz.role_ne_finish (step_of_steps hz)]
    exact run_append htaken rest

/-- A token that is refused ends the run, whatever comes behind it. -/
theorem run_refused {y : Yard} {t : Token} {e : ReadError} (ht : t.role ≠ .finish)
    (h : y.step t = .error e) (rest : List Token) : y.run after (t :: rest) = .error e := by
  simp only [run, ht, if_false, h]
  rfl

end

/-- A sequence of tokens is what stands before the end, and the end. -/
theorem beforeEnd_append_drop (tokens : List Token) :
    beforeEnd tokens ++ tokens.dropWhile (·.role ≠ .finish) = tokens :=
  List.takeWhile_append_dropWhile

theorem role_ne_finish_of_mem {t : Token} {tokens : List Token} (h : t ∈ beforeEnd tokens) :
    t.role ≠ .finish := by
  have hall : (beforeEnd tokens).all (·.role ≠ .finish) = true := List.all_takeWhile
  simpa using List.all_eq_true.mp hall t h

/-- At the end of a sequence of tokens there is one that marks it, or the sequence has no more. -/
theorem run_dropWhile (after : Yard → Except ReadError Polish) (y : Yard) (tokens : List Token) :
    y.run after (tokens.dropWhile (·.role ≠ .finish)) =
      match tokens.find? (·.role = .finish) with
      | some t => y.finish t.stop
      | none => after y := by
  induction tokens with
  | nil => rfl
  | cons t tokens ih =>
    by_cases ht : t.role = .finish
    · simp [ht, run]
    · simpa [ht] using ih

/-- If all tokens before the end are taken, the run ends in the state that they lead to. -/
theorem run_of_advance {y y' : Yard} {tokens : List Token}
    (h : y.advance (beforeEnd tokens) = .ok y') :
    ∃ place, y.run finishOpen tokens = y'.finish place := by
  have hrun : y.run finishOpen tokens = y'.run finishOpen (tokens.dropWhile (·.role ≠ .finish)) := by
    rw [← run_append h, beforeEnd_append_drop]
  rw [hrun, run_dropWhile]
  cases tokens.find? (·.role = .finish) with
  | some t => exact ⟨t.stop, rfl⟩
  | none => exact ⟨_, rfl⟩

/-- **A run comes to its end, or a token before it is refused.** -/
theorem run_cases (y : Yard) (tokens : List Token) :
    (∃ y' place, y.advance (beforeEnd tokens) = .ok y' ∧
      y.run finishOpen tokens = y'.finish place) ∨
    ∃ taken t rest y' e, beforeEnd tokens = taken ++ t :: rest ∧ y.advance taken = .ok y' ∧
      y'.step t = .error e ∧ y.run finishOpen tokens = .error e := by
  rcases advance_cases (beforeEnd tokens) y with ⟨y', hy'⟩ | ⟨taken, t, rest, y', e, heq, hy', ht⟩
  · obtain ⟨place, hplace⟩ := run_of_advance hy'
    exact .inl ⟨y', place, hy', hplace⟩
  · have hmem : t ∈ beforeEnd tokens := by simp [heq]
    refine .inr ⟨taken, t, rest, y', e, heq, hy', ht, ?_⟩
    rw [← beforeEnd_append_drop tokens, heq, List.append_assoc, run_append hy', List.cons_append,
      run_refused (role_ne_finish_of_mem hmem) ht]

/-- The tokens of a run that comes to its end are all taken before it. -/
theorem exists_advance_of_run {p : Polish} {tokens : List Token} {y : Yard}
    (h : y.run finishOpen tokens = .ok p) :
    ∃ y' place, y.advance (beforeEnd tokens) = .ok y' ∧ y'.finish place = .ok p := by
  rcases run_cases y tokens with ⟨y', place, hy', hrun⟩ | ⟨_, _, _, _, e, -, -, -, hrun⟩
  · exact ⟨y', place, hy', hrun.symm.trans h⟩
  · rw [hrun] at h
    cases h

end Yard

end Propositional
