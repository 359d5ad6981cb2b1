import Mathlib.Data.List.Basic
import Propositional.Proofs.Evaluation

/-!
# Evaluation is strict

The rules of evaluation are stated by themselves, without a stack and without an order of nodes:
all operands of a connective are evaluated, left to right, and the first error ends the evaluation;
only then is the number of operands compared with the arity. Evaluation on a stack follows them.

* `Connective.HoldsOf` — the truth tables of the connectives.
* `Formula.Evaluates`, `Formula.EvaluatesAll` — the rules, for a formula and for a list of operands.
* `Formula.evaluates_iff` — the rules give every formula one outcome, its truth value or its error.
* `Formula.truth_of_missing` — what happens if a variable has no value.
* `evaluate_strict` — evaluation on a stack has the outcome that the rules give.
-/

namespace Propositional

universe u

variable {V : Type u} [Truthy V]

/-! ## Truth tables -/

/-- What a connective says of its operands; it says nothing of the wrong number of them. -/
def Connective.HoldsOf : Connective → List Bool → Prop
  | not, [a] => ¬ a
  | and, [a, b] => a ∧ b
  | or, [a, b] => a ∨ b
  | xor, [a, b] => ¬ (a ↔ b)
  | implies, [a, b] => a → b
  | iff, [a, b] => a ↔ b
  | _, _ => False

theorem Connective.apply_of_holdsOf {k : Connective} {values : List Bool} {b : Bool}
    (hlen : values.length = k.arity) (hb : b = true ↔ k.HoldsOf values) : k.apply values = .ok b := by
  have hiff : ∀ c : Bool, (c = true ↔ k.HoldsOf values) → (.ok c : Except ArityError Bool) = .ok b :=
    fun c hc => congrArg _ (Bool.eq_iff_iff.mpr (hc.trans hb.symm))
  cases k with
  | not =>
    obtain ⟨a, rfl⟩ := List.length_eq_one_iff.mp hlen
    exact hiff _ (by simp [HoldsOf])
  | _ =>
    obtain ⟨a, c, rfl⟩ := List.length_eq_two.mp hlen
    exact hiff _ (by cases a <;> cases c <;> simp [HoldsOf])

theorem Connective.exists_value (k : Connective) (values : List Bool) :
    ∃ b : Bool, b = true ↔ k.HoldsOf values := by
  classical
  exact ⟨decide (k.HoldsOf values), decide_eq_true_iff⟩

theorem Connective.apply_of_ne {k : Connective} {values : List Bool}
    (hlen : values.length ≠ k.arity) : k.apply values = .error ⟨k, values.length⟩ :=
  (k.apply_eq_error_iff values _).mpr ⟨hlen, rfl⟩

namespace Formula

/-! ## The rules of evaluation -/

/-- The connective on top of a formula. -/
def connective? : Formula → Option Connective
  | unary k _ | binary k _ _ => some k
  | var _ | foreign _ => none

mutual

/-- The outcome of a formula. A connective is applied when all its operands have values. -/
inductive Evaluates (env : Environment V) : Formula → Except EvalError Bool → Prop where
  | known {name : String} {value : V} (h : env name = some value) :
    Evaluates env (.var name) (.ok (Truthy.truth value))
  | missing {name : String} (h : env name = none) :
    Evaluates env (.var name) (.error (.missingVariable name))
  | foreign (v : Value) : Evaluates env (.foreign v) (.error (.foreign v))
  | operands {f : Formula} {k : Connective} {e : EvalError} (hk : f.connective? = some k)
    (h : EvaluatesAll env f.children (.error e)) : Evaluates env f (.error e)
  | arity {f : Formula} {k : Connective} {values : List Bool} (hk : f.connective? = some k)
    (h : EvaluatesAll env f.children (.ok values)) (hlen : values.length ≠ k.arity) :
    Evaluates env f (.error (.arity ⟨k, values.length⟩))
  | applied {f : Formula} {k : Connective} {values : List Bool} {b : Bool}
    (hk : f.connective? = some k) (h : EvaluatesAll env f.children (.ok values))
    (hlen : values.length = k.arity) (hb : b = true ↔ k.HoldsOf values) : Evaluates env f (.ok b)

/-- The outcome of operands, left to right: their values, or the first error. -/
inductive EvaluatesAll (env : Environment V) :
    List Formula → Except EvalError (List Bool) → Prop where
  | none : EvaluatesAll env [] (.ok [])
  | first {f : Formula} {rest : List Formula} {e : EvalError} (h : Evaluates env f (.error e)) :
    EvaluatesAll env (f :: rest) (.error e)
  | later {f : Formula} {rest : List Formula} {b : Bool} {e : EvalError}
    (h : Evaluates env f (.ok b)) (hrest : EvaluatesAll env rest (.error e)) :
    EvaluatesAll env (f :: rest) (.error e)
  | all {f : Formula} {rest : List Formula} {b : Bool} {values : List Bool}
    (h : Evaluates env f (.ok b)) (hrest : EvaluatesAll env rest (.ok values)) :
    EvaluatesAll env (f :: rest) (.ok (b :: values))

end

/-- The truth value of a formula under a connective, by its operands. -/
theorem truth_eq_mapM {env : Environment V} {f : Formula} {k : Connective}
    (hk : f.connective? = some k) :
    f.truth env = f.children.mapM (truth env) >>= applyKind k := by
  cases f with
  | var name => cases hk
  | foreign v => cases hk
  | unary j g =>
    obtain rfl : j = k := Option.some.inj hk
    simp only [truth, children, List.mapM_cons, List.mapM_nil]
    cases g.truth env <;> rfl
  | binary j l r =>
    obtain rfl : j = k := Option.some.inj hk
    simp only [truth, children, List.mapM_cons, List.mapM_nil]
    cases l.truth env with
    | error e => rfl
    | ok a => cases r.truth env <;> rfl

mutual

theorem Evaluates.truth_eq {env : Environment V} : ∀ {f : Formula} {o : Except EvalError Bool},
    f.Evaluates env o → f.truth env = o
  | _, _, .known h => by simp only [truth, Environment.read, h]
  | _, _, .missing h => by simp only [truth, Environment.read, h]
  | _, _, .foreign v => by rw [truth]
  | _, _, .operands hk h => by
    rw [truth_eq_mapM hk, h.mapM_eq]
    rfl
  | _, _, .arity hk h hlen => by
    rw [truth_eq_mapM hk, h.mapM_eq]
    show applyKind _ _ = _
    rw [applyKind, Connective.apply_of_ne hlen]
    rfl
  | _, _, .applied hk h hlen hb => by
    rw [truth_eq_mapM hk, h.mapM_eq]
    show applyKind _ _ = _
    rw [applyKind, Connective.apply_of_holdsOf hlen hb]
    rfl

theorem EvaluatesAll.mapM_eq {env : Environment V} : ∀ {fs : List Formula}
    {o : Except EvalError (List Bool)}, EvaluatesAll env fs o → fs.mapM (truth env) = o
  | _, _, .none => rfl
  | _, _, .first h => by
    rw [List.mapM_cons, h.truth_eq]
    rfl
  | _, _, .later h hrest => by
    rw [List.mapM_cons, h.truth_eq, hrest.mapM_eq]
    rfl
  | _, _, .all h hrest => by
    rw [List.mapM_cons, h.truth_eq, hrest.mapM_eq]
    rfl

end

/-- Operands that have an outcome each have one together. -/
theorem evaluatesAll_mapM {env : Environment V} : ∀ {fs : List Formula},
    (∀ f ∈ fs, f.Evaluates env (f.truth env)) → EvaluatesAll env fs (fs.mapM (truth env))
  | [], _ => .none
  | f :: fs, h => by
    have hf := h f (by simp)
    have hfs := evaluatesAll_mapM fun g hg => h g (List.mem_cons_of_mem f hg)
    rw [List.mapM_cons]
    cases hb : f.truth env with
    | error e => exact .first (hb ▸ hf)
    | ok b =>
      rw [hb] at hf
      cases hvalues : fs.mapM (truth env) with
      | error e => exact .later hf (hvalues ▸ hfs)
      | ok values => exact .all hf (hvalues ▸ hfs)

/-- A connective has an outcome if its operands have. -/
theorem evaluates_of_children {env : Environment V} {f : Formula} {k : Connective}
    (hk : f.connective? = some k) (h : ∀ g ∈ f.children, g.Evaluates env (g.truth env)) :
    f.Evaluates env (f.truth env) := by
  have hall := evaluatesAll_mapM h
  rw [truth_eq_mapM hk]
  cases hvalues : f.children.mapM (truth env) with
  | error e => exact .operands hk (hvalues ▸ hall)
  | ok values =>
    rw [hvalues] at hall
    show f.Evaluates env (applyKind k values)
    by_cases hlen : values.length = k.arity
    · obtain ⟨b, hb⟩ := k.exists_value values
      rw [applyKind, Connective.apply_of_holdsOf hlen hb]
      exact .applied hk hall hlen hb
    · rw [applyKind, Connective.apply_of_ne hlen]
      exact .arity hk hall hlen

theorem evaluates_truth (env : Environment V) : ∀ f : Formula, f.Evaluates env (f.truth env)
  | var name => by
    rw [truth, Environment.read]
    cases h : env name with
    | none => exact .missing h
    | some value => exact .known h
  | foreign v => .foreign v
  | unary k f => by
    have hf := evaluates_truth env f
    refine evaluates_of_children rfl fun g hg => ?_
    rwa [List.mem_singleton.mp hg]
  | binary k l r => by
    have hl := evaluates_truth env l
    have hr := evaluates_truth env r
    refine evaluates_of_children rfl fun g hg => ?_
    simp only [children, List.mem_cons, List.not_mem_nil, or_false] at hg
    rcases hg with rfl | rfl
    · exact hl
    · exact hr

/-- **The rules give every formula exactly one outcome.** -/
theorem evaluates_iff {env : Environment V} {f : Formula} {o : Except EvalError Bool} :
    f.Evaluates env o ↔ f.truth env = o :=
  ⟨Evaluates.truth_eq, fun h => h ▸ evaluates_truth env f⟩

/-! ## No operand is ever wanting -/

theorem applyKind_ne_noOperand (k : Connective) (values : List Bool) :
    applyKind k values ≠ .error .noOperand := by
  rw [applyKind]
  cases k.apply values <;> exact nofun

theorem truth_ne_noOperand (env : Environment V) : ∀ f : Formula, f.truth env ≠ .error .noOperand
  | var name => by
    rw [truth, Environment.read]
    cases env name <;> exact nofun
  | unary k f => by
    rw [truth]
    cases h : f.truth env with
    | error e => exact fun heq => truth_ne_noOperand env f (h.trans heq)
    | ok a => exact applyKind_ne_noOperand k [a]
  | binary k l r => by
    rw [truth]
    cases hl : l.truth env with
    | error e => exact fun heq => truth_ne_noOperand env l (hl.trans heq)
    | ok a =>
      cases hr : r.truth env with
      | error e => exact fun heq => truth_ne_noOperand env r (hr.trans heq)
      | ok b => exact applyKind_ne_noOperand k [a, b]
  | foreign v => nofun

end Formula

/-! ## Variables without a value -/

/-- The truth values that an environment gives to its variables; all others are false. -/
def Environment.valuation (env : Environment V) (name : String) : Bool :=
  ((env name).map Truthy.truth).getD false

/-- The first of some names that has no value. -/
def Environment.firstMissing? (env : Environment V) (names : List String) : Option String :=
  names.find? fun name => (env name).isNone

namespace Environment

variable {env : Environment V} {names : List String}

theorem read_of_firstMissing?_eq_none (h : env.firstMissing? names = none) :
    ∀ name ∈ names, env.read name = .ok (env.valuation name) := by
  intro name hname
  have hsome : env name ≠ none := by
    simpa using List.find?_eq_none.mp h name hname
  obtain ⟨value, hvalue⟩ := Option.ne_none_iff_exists'.mp hsome
  simp [read, valuation, hvalue]

omit [Truthy V] in
theorem firstMissing?_isSome_iff :
    (∃ name, env.firstMissing? names = some name) ↔ ∃ name ∈ names, env name = none := by
  rw [← Option.isSome_iff_exists, firstMissing?, List.find?_isSome]
  simp

omit [Truthy V] in
/-- The first name without a value is the same when every name is listed only where it first
occurs. By induction on the number of names. -/
theorem firstMissing?_eraseDups (env : Environment V) :
    ∀ names : List String, env.firstMissing? names.eraseDups = env.firstMissing? names
  | [] => rfl
  | name :: names => by
    rw [List.eraseDups_cons, firstMissing?, firstMissing?, List.find?_cons, List.find?_cons]
    cases h : (env name).isNone with
    | true => rfl
    | false =>
      have ih := firstMissing?_eraseDups env (names.filter fun x => !x == name)
      simp only [firstMissing?, List.find?_filter] at ih
      have hsame : ∀ x, decide ((!x == name) = true ∧ (env x).isNone = true) = (env x).isNone := by
        intro x
        rw [Bool.eq_iff_iff, decide_eq_true_iff]
        by_cases hx : x = name
        · simp [hx, h]
        · simp [hx]
      simpa only [hsame] using ih
termination_by names => names.length
decreasing_by exact Nat.lt_succ_of_le (List.length_filter_le _ names)

end Environment

namespace Formula

/-- **A variable without a value is an error**, and of several the first one counts. -/
theorem truth_of_missing {env : Environment V} {name : String} : ∀ {f : Formula}, f.Proper →
    env.firstMissing? f.occurrences = some name → f.truth env = .error (.missingVariable name)
  | var _, _, h => by
    simp only [occurrences, Environment.firstMissing?, List.find?_singleton] at h
    split at h
    · rename_i hnone
      cases h
      rw [truth, Environment.read, Option.isNone_iff_eq_none.mp hnone]
    · cases h
  | unary k f, ⟨_, hf⟩, h => by
    rw [truth, truth_of_missing hf h]
    rfl
  | binary k l r, ⟨_, hl, hr⟩, h => by
    rw [occurrences, Environment.firstMissing?, List.find?_append] at h
    cases hleft : env.firstMissing? l.occurrences with
    | some first =>
      rw [show l.occurrences.find? _ = some first from hleft] at h
      cases h
      rw [truth, truth_of_missing hl hleft]
      rfl
    | none =>
      -- the left operand has a value, and the right one is evaluated whatever it is
      rw [show l.occurrences.find? _ = none from hleft, Option.none_or] at h
      rw [truth, truth_of_proper hl (Environment.read_of_firstMissing?_eq_none hleft),
        truth_of_missing hr h]
      rfl

/-- The outcome of a proper formula: the first variable without a value, or its truth. -/
theorem truth_eq_missing_iff {env : Environment V} {f : Formula} (hf : f.Proper) (name : String) :
    f.truth env = .error (.missingVariable name) ↔ env.firstMissing? f.names.names = some name := by
  rw [f.names_eq, NameSet.names_ofList, Environment.firstMissing?_eraseDups]
  constructor
  · intro h
    cases hfirst : env.firstMissing? f.occurrences with
    | some first =>
      rw [truth_of_missing hf hfirst] at h
      cases h
      rfl
    | none =>
      rw [truth_of_proper hf (Environment.read_of_firstMissing?_eq_none hfirst)] at h
      cases h
  · exact truth_of_missing hf

end Formula

/-! ## Evaluation on a stack -/

/-- **Evaluation on a stack is strict evaluation from left to right.** It has the outcome that the
rules give, errors included; it leaves one value on the stack and never wants an operand. A proper
formula fails exactly if one of its variables has no value, and the error names the first of them. -/
theorem evaluate_strict (env : Environment V) (f : Formula) :
    (∀ o, f.evaluate env = o ↔ f.Evaluates env o) ∧
    f.bottomUp.foldlM (evaluateNode env) [] = (f.evaluate env).map ([·]) ∧
    f.evaluate env ≠ .error .noOperand ∧
    (f.Proper →
      ((∃ name, f.evaluate env = .error (.missingVariable name)) ↔
        ∃ name ∈ f.names.names, env name = none) ∧
      ∀ name, f.evaluate env = .error (.missingVariable name) ↔
        f.names.names.find? (fun x => (env x).isNone) = some name) := by
  rw [Formula.evaluate_eq_truth]
  refine ⟨fun o => Formula.evaluates_iff.symm, ?_, f.truth_ne_noOperand env, fun hf => ⟨?_, ?_⟩⟩
  · rw [Formula.bottomUp_eq_postorder, Formula.foldlM_postorder]
  · rw [← Environment.firstMissing?_isSome_iff]
    exact exists_congr (Formula.truth_eq_missing_iff hf)
  · exact Formula.truth_eq_missing_iff hf

/-- An environment in which only `p` has a value, and a true one. -/
def onlyP : Environment Value := fun name => if name = "p" then some (.int 3) else none

/-- The formula `p ∨ (q → r)`. -/
def shortcut : Formula := .binary .or (.var "p") (.binary .implies (.var "q") (.var "r"))

theorem evaluate_strict_shortcut :
    shortcut.Proper ∧ shortcut.evaluate onlyP = .error (.missingVariable "q") := by
  have hproper : shortcut.Proper := ⟨rfl, trivial, rfl, trivial, trivial⟩
  refine ⟨hproper, (((evaluate_strict onlyP shortcut).2.2.2 hproper).2 "q").mpr ?_⟩
  rw [Formula.names_eq]
  decide

end Propositional
