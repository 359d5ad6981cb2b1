import Propositional.Proofs.Cursors
import Propositional.Proofs.Lockstep

/-!
# All rows or none

No operand is skipped in an evaluation, and what a node does to the height of the stack does not
depend on the values there. So an evaluation that fails for one assignment fails for every other, and
for the same reason.

* `FailAlike` — two computations that fail together.
* `Environment.SameDomain` — two environments in which the same variables have values.
* `evaluateNode_agree` — one node, on stacks of one height.
* `foldlM_evaluateNode_agree`, `evaluatePolish_agree` — all nodes.
* `rowAt_agree` — two rows of one formula.
* `Formula.proper_of_truth`, `exists_allRows_error` — what has a truth value is proper, so a formula
  that is not proper has no rows.
* `rows_all_or_none` — there are too many columns, or the first row fails, or no row fails.
-/

namespace Propositional

universe u v

/-! ## Evaluation -/

/-- Both computations fail, for the same reason, or neither fails. -/
abbrev FailAlike {ε α : Type} (x x' : Except ε α) : Prop := Agree (· = ·) (fun _ _ => True) x x'

/-- The same variables have values, though perhaps others. -/
def Environment.SameDomain {V : Type u} {W : Type v} (env : Environment V)
    (env' : Environment W) : Prop :=
  ∀ name, (env name).isSome = (env' name).isSome

/-- One stack is as high as the other. -/
def SameHeight (stack stack' : List Bool) : Prop := stack.length = stack'.length

theorem applyKind_agree (k : Connective) {args args' : List Bool} (h : SameHeight args args') :
    FailAlike (applyKind k args) (applyKind k args') := by
  have herror := k.apply_eq_error_iff args
  have herror' := k.apply_eq_error_iff args'
  have hlength : args.length = args'.length := h
  rw [← hlength] at herror'
  unfold applyKind
  cases hx : k.apply args with
  | error e =>
    have hx' : k.apply args' = .error e := (herror' e).mpr ((herror e).mp hx)
    rw [hx']
    exact .error rfl
  | ok b =>
    cases hx' : k.apply args' with
    | error e =>
      have hfail := (herror e).mpr ((herror' e).mp hx')
      rw [hx] at hfail
      cases hfail
    | ok b' => exact .ok trivial

section

variable {V : Type u} [Truthy V] {W : Type v} [Truthy W] {env : Environment V}
  {env' : Environment W} (h : env.SameDomain env')
include h

theorem Environment.SameDomain.read (name : String) :
    FailAlike (env.read name) (env'.read name) := by
  have hname := h name
  unfold Environment.read
  cases hv : env name with
  | none =>
    cases hv' : env' name with
    | none => exact .error rfl
    | some v' => simp [hv, hv'] at hname
  | some v =>
    cases hv' : env' name with
    | none => simp [hv, hv'] at hname
    | some v' => exact .ok trivial

/-- **What a node does to the height of the stack does not depend on the values there**, nor whether
and why it fails. -/
theorem evaluateNode_agree (node : Formula) {stack stack' : List Bool}
    (hs : SameHeight stack stack') :
    Agree (· = ·) SameHeight (evaluateNode env stack node) (evaluateNode env' stack' node) := by
  cases node with
  | var name => exact (h.read name).map fun _ => congrArg Nat.succ hs
  | unary k f =>
    cases stack with
    | nil =>
      obtain rfl : stack' = [] := List.eq_nil_of_length_eq_zero hs.symm
      exact .error rfl
    | cons a rest =>
      cases stack' with
      | nil => cases hs
      | cons a' rest' =>
        have hone : SameHeight [a] [a'] := rfl
        exact (applyKind_agree k hone).map fun _ => hs
  | binary k l r =>
    match stack, stack', hs with
    | [], [], _ | [_], [_], _ => exact .error rfl
    | b :: a :: rest, b' :: a' :: rest', hs =>
      have htwo : SameHeight [a, b] [a', b'] := rfl
      exact (applyKind_agree k htwo).map fun _ => Nat.succ.inj hs
  | foreign v => exact .error rfl

theorem foldlM_evaluateNode_agree : ∀ (nodes : List Formula) {stack stack' : List Bool},
    SameHeight stack stack' → Agree (· = ·) SameHeight (nodes.foldlM (evaluateNode env) stack)
      (nodes.foldlM (evaluateNode env') stack')
  | [], _, _, hs => .ok hs
  | node :: nodes, _, _, hs => by
    rw [List.foldlM_cons, List.foldlM_cons]
    exact (evaluateNode_agree h node hs).bind fun _ hs' => foldlM_evaluateNode_agree nodes hs'

/-- **Whether and why an evaluation fails does not depend on the values of the variables.** -/
theorem evaluatePolish_agree (nodes : List Formula) :
    FailAlike (evaluatePolish env nodes) (evaluatePolish env' nodes) := by
  refine (foldlM_evaluateNode_agree h nodes rfl).bind ?_
  intro stack stack' _ hs
  cases stack with
  | nil =>
    obtain rfl : stack' = [] := List.eq_nil_of_length_eq_zero hs.symm
    exact .error rfl
  | cons b rest =>
    cases stack' with
    | nil => cases hs
    | cons b' rest' => exact .ok trivial

end

/-! ## Rows -/

section

variable (nodes : List Formula) (names : List String) (places : PlaceTable)

/-- Assignments by one table of places have values for the same names. -/
theorem Assignment.environment_sameDomain (i j : Nat) :
    (Assignment.mk names places i).environment.SameDomain
      (Assignment.mk names places j).environment := by
  intro name
  simp only [environment, get]
  cases places.lookup name with
  | none => rfl
  | some place =>
    by_cases hneg : place < 0
    · simp [hneg]
    · simp [hneg]

/-- **The rows fail together**, for one reason. -/
theorem rowAt_agree (i j : Nat) :
    FailAlike (rowAt nodes names places i) (rowAt nodes names places j) :=
  (evaluatePolish_agree (Assignment.environment_sameDomain names places i j) nodes).map
    fun _ => trivial

variable {nodes names places}

theorem index_of_rowAt {i : Nat} {row : Row} (h : rowAt nodes names places i = .ok row) :
    row.index = i := by
  obtain ⟨b, -, rfl⟩ := exists_of_map_eq_ok h
  rfl

end

variable {f : Formula} {names : List String}

/-- If the first row fails, there are no rows. -/
theorem allRows_of_first_error {e : EvalError}
    (h : rowAt f.bottomUp names (placeTable names) 0 = .error e) : allRows f names = .error e := by
  obtain ⟨n, hn⟩ : ∃ n, assignmentCount names.length = n + 1 :=
    Nat.exists_eq_succ_of_ne_zero (Nat.ne_of_gt (Nat.two_pow_pos names.length))
  rw [allRows, hn, List.range_succ_eq_map, List.mapM_cons, h]
  rfl

/-- A cursor whose first row fails gives that error and then nothing. -/
theorem RowCursor.pull_start_of_first_error {e : EvalError}
    (h : rowAt f.bottomUp names (placeTable names) 0 = .error e) :
    ∃ c', (start f names).pull = (.error e, c') ∧ c'.pull = (.ok none, c') := by
  have hcount : ¬ assignmentCount names.length ≤ 0 := Nat.not_le.mpr (Nat.two_pow_pos _)
  refine ⟨{ start f names with closed := true }, ?_, rfl⟩
  simp [pull, start, hcount, h]

/-- If the first row can be evaluated, then so can all of them. -/
theorem exists_allRows_of_first_ok {first : Row}
    (h : rowAt f.bottomUp names (placeTable names) 0 = .ok first) :
    ∃ rows, allRows f names = .ok rows ∧ rows.length = 2 ^ names.length ∧
      rows.map Row.index = List.range (2 ^ names.length) := by
  have hall : ∀ i, ∃ row, rowAt f.bottomUp names (placeTable names) i = .ok row := by
    intro i
    have hi := (rowAt_agree f.bottomUp names (placeTable names) 0 i).eq_error_iff
    cases hrow : rowAt f.bottomUp names (placeTable names) i with
    | ok row => exact ⟨row, rfl⟩
    | error e =>
      have hfail := (hi e).mpr hrow
      rw [h] at hfail
      cases hfail
  choose row hrow using hall
  refine ⟨_, mapM_ok fun i _ => hrow i, by simp [assignmentCount], ?_⟩
  have hindex : Row.index ∘ row = id := funext fun i => index_of_rowAt (hrow i)
  rw [List.map_map, hindex, List.map_id]
  rfl

/-! ## Formulas that are not proper -/

theorem arity_of_applyKind {k : Connective} {values : List Bool} {b : Bool}
    (h : applyKind k values = .ok b) : k.arity = values.length := by
  have happly := eq_ok_of_mapError_eq_ok h
  by_contra hne
  have herror := (k.apply_eq_error_iff values ⟨k, values.length⟩).mpr ⟨Ne.symm hne, rfl⟩
  rw [herror] at happly
  cases happly

/-- **What has a truth value is proper.** -/
theorem Formula.proper_of_truth {V : Type u} [Truthy V] {env : Environment V} : ∀ {f : Formula} {b : Bool},
    f.truth env = .ok b → f.Proper
  | var _, _, _ => trivial
  | unary k f, b, h => by
    obtain ⟨a, hf, hk⟩ := exists_of_bind_eq_ok h
    exact ⟨arity_of_applyKind hk, proper_of_truth hf⟩
  | binary k l r, b, h => by
    obtain ⟨a, hl, h⟩ := exists_of_bind_eq_ok h
    obtain ⟨c, hr, hk⟩ := exists_of_bind_eq_ok h
    exact ⟨arity_of_applyKind hk, proper_of_truth hl, proper_of_truth hr⟩
  | foreign v, b, h => by cases h

/-- A formula that is not proper has no rows, whatever the names are. -/
theorem exists_allRows_error {f : Formula} (hf : ¬ f.Proper) (names : List String) :
    ∃ e, allRows f names = .error e := by
  cases hfirst : rowAt f.bottomUp names (placeTable names) 0 with
  | error e => exact ⟨e, allRows_of_first_error hfirst⟩
  | ok row =>
    obtain ⟨b, hvalue, -⟩ := exists_of_map_eq_ok hfirst
    have htruth : f.truth (assignmentAt names 0).environment = .ok b := by
      rw [← Formula.evaluate_eq_truth]
      exact hvalue
    exact absurd (Formula.proper_of_truth htruth) hf

/-! ## All or none -/

/-- **There are too many columns, or the first row fails and there are none, or no row fails.** The
formula need not be proper, and the names need not be distinct or cover its variables. -/
theorem rows_all_or_none (f : Formula) (names : List String) (limit : Int) :
    (limit < names.length ∧ openRows f names limit = .error ⟨names.length, limit⟩ ∨
      names.length ≤ limit ∧ ∃ c, openRows f names limit = .ok c ∧
        ((∃ e c', c.pull = (.error e, c') ∧ c'.pull = (.ok none, c') ∧
            buildRows f (some names) limit = .error (.eval e)) ∨
          ∃ rows, rows.length = 2 ^ names.length ∧
            rows.map Row.index = List.range (2 ^ names.length) ∧
            (∀ n, (c.pullMany n).1 = .ok (rows.take n)) ∧
            buildRows f (some names) limit = .ok rows)) ∧
    ∀ i j e, f.evaluate (assignmentAt names i).environment = .error e ↔
      f.evaluate (assignmentAt names j).environment = .error e := by
  constructor
  · by_cases hlimit : limit < names.length
    · exact .inl ⟨hlimit, by simp [openRows, checkCount, hlimit, Except.map]⟩
    · have hle : names.length ≤ limit := Int.not_lt.mp hlimit
      have hbuild : buildRows f (some names) limit = (allRows f names).mapError .eval :=
        buildRows_of_le hle
      refine .inr ⟨hle, .start f names, openRows_of_le hle, ?_⟩
      rw [hbuild]
      cases hfirst : rowAt f.bottomUp names (placeTable names) 0 with
      | error e =>
        obtain ⟨c', hpull, hend⟩ := RowCursor.pull_start_of_first_error hfirst
        exact .inl ⟨e, c', hpull, hend, by rw [allRows_of_first_error hfirst]; rfl⟩
      | ok first =>
        obtain ⟨rows, hrows, hlength, hindex⟩ := exists_allRows_of_first_ok hfirst
        refine .inr ⟨rows, hlength, hindex, ?_, by rw [hrows]; rfl⟩
        intro n
        obtain ⟨c', hpull, -⟩ := RowCursor.pullMany_of_yields n (RowCursor.yields_start hrows)
        rw [hpull]
  · intro i j e
    exact (evaluatePolish_agree (Assignment.environment_sameDomain names (placeTable names) i j)
      f.bottomUp).eq_error_iff e

end Propositional
