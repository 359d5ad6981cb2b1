import Propositional.Proofs.Traversal

/-!
# Evaluation and truth

* `evaluate_eq_truth` — evaluation on a stack is evaluation by recursion, errors included.
* `Formula.Holds` — which formulas are true under a valuation.
* `truth_of_proper` — a formula whose connectives have as many operands as they take evaluates to
  its truth if its variables have values.
-/

namespace Propositional

universe u

variable {V : Type u} [Truthy V]

namespace Formula

/-! ## Evaluation on a stack -/

/-- The nodes of a formula put its truth value on the stack, or fail as the formula does. -/
theorem foldlM_postorder (env : Environment V) : ∀ (f : Formula) (stack : List Bool),
    f.postorder.foldlM (evaluateNode env) stack = (f.truth env).map (· :: stack)
  | var name, stack => by
    rw [postorder, List.foldlM_cons, evaluateNode, truth]
    cases env.read name <;> rfl
  | unary k f, stack => by
    rw [postorder, List.foldlM_append, foldlM_postorder env f, truth]
    cases f.truth env with
    | error e => rfl
    | ok a =>
      show evaluateNode env (a :: stack) (unary k f) >>= pure = _
      rw [bind_pure]
      rfl
  | binary k l r, stack => by
    rw [postorder, List.foldlM_append, List.foldlM_append, foldlM_postorder env l, truth]
    cases l.truth env with
    | error e => rfl
    | ok a =>
      show (r.postorder.foldlM (evaluateNode env) (a :: stack) >>=
        ([binary k l r].foldlM (evaluateNode env) ·)) = _
      rw [foldlM_postorder env r]
      cases r.truth env with
      | error e => rfl
      | ok b =>
        show evaluateNode env (b :: a :: stack) (binary k l r) >>= pure = _
        rw [bind_pure]
        rfl
  | foreign v, stack => by
    rw [postorder, List.foldlM_cons, evaluateNode, truth]
    rfl

/-- **Evaluation on a stack is evaluation by recursion**, with the same error if there is one. -/
theorem evaluate_eq_truth (env : Environment V) (f : Formula) : f.evaluate env = f.truth env := by
  unfold evaluate evaluatePolish
  rw [bottomUp_eq_postorder, foldlM_postorder]
  cases f.truth env <;> rfl

/-! ## Truth -/

/-- The formula is true under the valuation. A connective over the wrong number of formulas, and a
value in the place of a formula, are not. -/
def Holds (ρ : String → Bool) : Formula → Prop
  | var name => ρ name = true
  | unary .not f => ¬ f.Holds ρ
  | binary .and l r => l.Holds ρ ∧ r.Holds ρ
  | binary .or l r => l.Holds ρ ∨ r.Holds ρ
  | binary .xor l r => ¬ (l.Holds ρ ↔ r.Holds ρ)
  | binary .implies l r => l.Holds ρ → r.Holds ρ
  | binary .iff l r => l.Holds ρ ↔ r.Holds ρ
  | unary _ _ | binary .not _ _ | foreign _ => False

instance decidableHolds (ρ : String → Bool) : (f : Formula) → Decidable (f.Holds ρ)
  | var name => inferInstanceAs (Decidable (ρ name = true))
  | unary .not f =>
    have := decidableHolds ρ f
    inferInstanceAs (Decidable (¬ f.Holds ρ))
  | binary .and l r =>
    have := decidableHolds ρ l
    have := decidableHolds ρ r
    inferInstanceAs (Decidable (l.Holds ρ ∧ r.Holds ρ))
  | binary .or l r =>
    have := decidableHolds ρ l
    have := decidableHolds ρ r
    inferInstanceAs (Decidable (l.Holds ρ ∨ r.Holds ρ))
  | binary .xor l r =>
    have := decidableHolds ρ l
    have := decidableHolds ρ r
    inferInstanceAs (Decidable (¬ (l.Holds ρ ↔ r.Holds ρ)))
  | binary .implies l r =>
    have := decidableHolds ρ l
    have := decidableHolds ρ r
    inferInstanceAs (Decidable (l.Holds ρ → r.Holds ρ))
  | binary .iff l r =>
    have := decidableHolds ρ l
    have := decidableHolds ρ r
    inferInstanceAs (Decidable (l.Holds ρ ↔ r.Holds ρ))
  | unary .and _ | unary .or _ | unary .xor _ | unary .implies _ | unary .iff _ | binary .not _ _
  | foreign _ => inferInstanceAs (Decidable False)

/-- Every connective has as many operands as it takes, and every node is a formula. -/
def Proper : Formula → Prop
  | var _ => True
  | unary k f => k.arity = 1 ∧ f.Proper
  | binary k l r => k.arity = 2 ∧ l.Proper ∧ r.Proper
  | foreign _ => False

/-- A truth function gives the truth of a formula from the truth of its parts. -/
theorem ok_eq_decide {b : Bool} {p : Prop} [Decidable p] (h : b = true ↔ p) :
    (Except.ok b : Except EvalError Bool) = .ok (decide p) := by
  rw [Except.ok.injEq, Bool.eq_iff_iff, h, decide_eq_true_iff]

/-- **A proper formula evaluates to its truth** if the environment gives its variables the values of
the valuation. -/
theorem truth_of_proper {env : Environment V} {ρ : String → Bool} : ∀ {f : Formula}, f.Proper →
    (∀ x ∈ f.occurrences, env.read x = .ok (ρ x)) → f.truth env = .ok (decide (f.Holds ρ))
  | var name, _, hread => by
    rw [truth, hread name (by simp [occurrences])]
    exact ok_eq_decide Iff.rfl
  | unary k f, ⟨hk, hf⟩, hread => by
    rw [truth, truth_of_proper hf hread]
    cases k with
    | not => exact ok_eq_decide (by simp [Holds])
    | _ => simp [Connective.arity] at hk
  | binary k l r, ⟨hk, hl, hr⟩, hread => by
    have hreadl : ∀ x ∈ l.occurrences, env.read x = .ok (ρ x) :=
      fun x hx => hread x (by simp [occurrences, hx])
    have hreadr : ∀ x ∈ r.occurrences, env.read x = .ok (ρ x) :=
      fun x hx => hread x (by simp [occurrences, hx])
    rw [truth, truth_of_proper hl hreadl, truth_of_proper hr hreadr]
    cases k with
    | not => simp [Connective.arity] at hk
    | and => exact ok_eq_decide (by simp [Holds])
    | or => exact ok_eq_decide (by simp [Holds])
    | xor => exact ok_eq_decide (by simp [Holds])
    | implies => exact ok_eq_decide (by simp [Holds, Decidable.imp_iff_not_or])
    | iff => exact ok_eq_decide (by simp [Holds])

/-- Truth depends on the variables of a formula only. -/
theorem holds_congr {ρ σ : String → Bool} : ∀ {f : Formula}, (∀ x ∈ f.occurrences, ρ x = σ x) →
    (f.Holds ρ ↔ f.Holds σ)
  | var name, h => by rw [Holds, Holds, h name (by simp [occurrences])]
  | unary k f, h => by
    have hf : f.Holds ρ ↔ f.Holds σ := holds_congr h
    cases k <;> simp [Holds, hf]
  | binary k l r, h => by
    have hl : l.Holds ρ ↔ l.Holds σ := holds_congr fun x hx => h x (by simp [occurrences, hx])
    have hr : r.Holds ρ ↔ r.Holds σ := holds_congr fun x hx => h x (by simp [occurrences, hx])
    cases k <;> simp [Holds, hl, hr]
  | foreign v, h => by simp [Holds]

end Formula

end Propositional
