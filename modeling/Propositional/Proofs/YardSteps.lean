import Propositional.Reading.Yard
import Propositional.Proofs.Grammar

/-!
# The steps of the shunting yard

* `release_operators`, `closeGroup_operators`, `drain_operators` — what leaves the stack, in terms of
  the operators on top of it. `exists_operators` and `exists_group` find these operators.
* `Yard.Steps` — everything that a token can do to the yard, one case for each part that a token can
  play; `Yard.step_eq_ok_iff`. `Yard.Steps.isPart` names these parts.
* `Yard.run_cons` — a sequence of tokens is run one token after the other.
-/

namespace Propositional

/-- Operators with their tokens, waiting on the stack. -/
def operators (held : List (Operator × Token)) : List Pending :=
  held.map fun p => .operator p.1 p.2

@[simp] theorem operators_nil : operators [] = [] := rfl

@[simp] theorem operators_cons (p : Operator × Token) (held : List (Operator × Token)) :
    operators (p :: held) = .operator p.1 p.2 :: operators held := rfl

@[simp] theorem operators_append (held more : List (Operator × Token)) :
    operators (held ++ more) = operators held ++ operators more := by simp [operators]

/-- The number of groups that are open. -/
def groupCount (pending : List Pending) : Nat := pending.countP Pending.isGroup

@[simp] theorem groupCount_nil : groupCount [] = 0 := rfl

@[simp] theorem groupCount_group (t : Token) (pending : List Pending) :
    groupCount (.group t :: pending) = groupCount pending + 1 :=
  List.countP_cons_of_pos rfl

@[simp] theorem groupCount_operator (op : Operator) (t : Token) (pending : List Pending) :
    groupCount (.operator op t :: pending) = groupCount pending :=
  List.countP_cons_of_neg (by simp [Pending.isGroup])

@[simp] theorem groupCount_operators (held : List (Operator × Token)) :
    groupCount (operators held) = 0 := by
  induction held with
  | nil => rfl
  | cons p held ih => simp [ih]

@[simp] theorem groupCount_operators_append (held : List (Operator × Token))
    (pending : List Pending) : groupCount (operators held ++ pending) = groupCount pending := by
  induction held with
  | nil => rfl
  | cons p held ih => simp [ih]

theorem any_isGroup (pending : List Pending) :
    pending.any Pending.isGroup = true ↔ groupCount pending ≠ 0 := by
  simp [groupCount, List.countP_eq_zero]

/-- A stack without a group holds operators. -/
theorem exists_operators : ∀ {pending : List Pending}, groupCount pending = 0 →
    ∃ held, pending = operators held
  | [], _ => ⟨[], rfl⟩
  | .group o :: rest, h => by simp at h
  | .operator op t :: rest, h => by
    rw [groupCount_operator] at h
    obtain ⟨held, rfl⟩ := exists_operators h
    exact ⟨(op, t) :: held, rfl⟩

/-- A stack with a group begins with the operators of the innermost one. -/
theorem exists_group : ∀ {pending : List Pending}, groupCount pending ≠ 0 →
    ∃ held o rest, pending = operators held ++ .group o :: rest
  | [], h => by simp at h
  | .group o :: rest, _ => ⟨[], o, rest, rfl⟩
  | .operator op t :: rest, h => by
    rw [groupCount_operator] at h
    obtain ⟨held, o, rest', rfl⟩ := exists_group h
    exact ⟨(op, t) :: held, o, rest', rfl⟩

/-- The token plays a part in expressions: it is a name, a parenthesis or an operator with a
meaning. -/
def Token.IsPart (t : Token) : Prop :=
  t.role = .identifier ∨ t.role = .opening ∨ t.role = .closing ∨ ∃ op, t.role = .operator op

namespace Yard

/-! ## What leaves the stack -/

/-- The given operator leaves what is on top of the stack where it is. -/
def Rests (op : Operator) (pending : List Pending) : Prop :=
  ∀ p ∈ pending.head?, ∀ before u, p = .operator before u → completes op before = .ok false

theorem release_of_rests {op : Operator} {t : Token} {pending : List Pending} {emitted : List Token}
    (h : Rests op pending) : release op t pending emitted = .ok (pending, emitted) := by
  match pending with
  | [] => rfl
  | .group o :: rest => rfl
  | .operator before u :: rest => simp [release, h _ rfl before u rfl]

/-- Operators that are complete leave the stack, the top first. -/
theorem release_operators {op : Operator} {t : Token} {pending : List Pending}
    (hrests : Rests op pending) :
    ∀ (held : List (Operator × Token)) (emitted : List Token),
      (∀ p ∈ held, completes op p.1 = .ok true) →
      release op t (operators held ++ pending) emitted =
        .ok (pending, (held.map Prod.snd).reverse ++ emitted)
  | [], emitted, _ => by simpa using release_of_rests hrests
  | p :: held, emitted, h => by
    simp only [operators_cons, List.cons_append, release, h p (by simp)]
    rw [release_operators hrests held _ (fun q hq => h q (by simp [hq]))]
    simp

/-- What is released are operators on top of the stack. -/
theorem exists_of_release {op : Operator} {t : Token} : ∀ {pending left : List Pending}
    {emitted emitted' : List Token}, release op t pending emitted = .ok (left, emitted') →
      ∃ held, pending = operators held ++ left ∧
        emitted' = (held.map Prod.snd).reverse ++ emitted
  | [], left, emitted, emitted', h => by cases h; exact ⟨[], rfl, rfl⟩
  | .group o :: rest, left, emitted, emitted', h => by cases h; exact ⟨[], rfl, rfl⟩
  | .operator before u :: rest, left, emitted, emitted', h => by
    unfold release at h
    split at h
    · obtain ⟨held, rfl, rfl⟩ := exists_of_release h
      exact ⟨(before, u) :: held, rfl, by simp⟩
    · cases h
      exact ⟨[], rfl, rfl⟩
    · cases h

/-- If nothing can be released, it is for the side of the operator. -/
theorem release_error {op : Operator} {t : Token} : ∀ {pending : List Pending}
    {emitted : List Token} {e : ReadError}, release op t pending emitted = .error e →
      ∃ text, e = .side t text
  | [], emitted, e, h => by cases h
  | .group o :: rest, emitted, e, h => by cases h
  | .operator before u :: rest, emitted, e, h => by
    unfold release at h
    split at h
    · exact release_error h
    · cases h
    · exact ⟨_, (Except.error.inj h).symm⟩

/-- An operator that groups to one of the sides can always be compared. -/
theorem exists_release {op : Operator} (t : Token)
    (hside : op.associativity = .left ∨ op.associativity = .right) :
    ∀ (pending : List Pending) (emitted : List Token),
      ∃ r, release op t pending emitted = .ok r
  | [], emitted => ⟨_, rfl⟩
  | .group o :: rest, emitted => ⟨_, rfl⟩
  | .operator before u :: rest, emitted => by
    have hcompare : ∃ b, completes op before = .ok b := by
      rcases hside with h | h <;> simp [completes, h]
    obtain ⟨b, hb⟩ := hcompare
    cases b with
    | true =>
      obtain ⟨r, hr⟩ := exists_release t hside rest (u :: emitted)
      exact ⟨r, by simp [release, hb, hr]⟩
    | false => exact ⟨_, by simp [release, hb]; rfl⟩

theorem closeGroup_operators (o : Token) (rest : List Pending) :
    ∀ (held : List (Operator × Token)) (emitted : List Token),
      closeGroup (operators held ++ .group o :: rest) emitted =
        (rest, (held.map Prod.snd).reverse ++ emitted)
  | [], emitted => rfl
  | p :: held, emitted => by
    simp [closeGroup, closeGroup_operators o rest held]

theorem drain_operators : ∀ (held : List (Operator × Token)) (emitted : List Token),
    drain (operators held) emitted = .ok (emitted.reverse ++ held.map Prod.snd)
  | [], emitted => by simp [drain]
  | p :: held, emitted => by simp [drain, drain_operators held]

theorem drain_group (o : Token) (rest : List Pending) :
    ∀ (held : List (Operator × Token)) (emitted : List Token),
      drain (operators held ++ .group o :: rest) emitted = .error (.parse (.neverClosed o))
  | [], emitted => rfl
  | p :: held, emitted => by simp [drain, drain_group o rest held]

/-! ## What a token does -/

/-- The ways in which a token can be taken. -/
inductive Steps (y : Yard) : Token → Yard → Prop where
  | name (t : NameToken) (h : y.expectsOperand = true) :
    Steps y t.val { y with
      emitted := t.val :: y.emitted, names := y.names.add t.val.value, expectsOperand := false }
  | opening (t : OpeningToken) (h : y.expectsOperand = true) :
    Steps y t.val { y with pending := .group t.val :: y.pending }
  | prefixed (u : PrefixToken) (h : y.expectsOperand = true) :
    Steps y u.token { y with pending := .operator u.op u.token :: y.pending }
  | infixed (b : InfixToken) (h : y.expectsOperand = false) (left : List Pending)
      (emitted : List Token) (hr : release b.op b.token y.pending y.emitted = .ok (left, emitted)) :
    Steps y b.token
      { y with pending := .operator b.op b.token :: left, emitted, expectsOperand := true }
  | closing (c : ClosingToken) (h : y.expectsOperand = false) (held : List (Operator × Token))
      (o : Token) (rest : List Pending) (hp : y.pending = operators held ++ .group o :: rest) :
    Steps y c.val { y with
      pending := rest, emitted := (held.map Prod.snd).reverse ++ y.emitted, expectsOperand := false }

theorem step_of_steps {y y' : Yard} {t : Token} (h : Steps y t y') : y.step t = .ok y' := by
  cases h with
  | name t h => simp [step, t.property, h]
  | opening t h => simp [step, t.property, h]
  | prefixed u h => simp [step, u.role_eq, u.arity_eq, h]
  | infixed b h left emitted hr => simp [step, b.role_eq, b.arity_eq, h, hr]; rfl
  | closing c h held o rest hp =>
    have hany : y.pending.any Pending.isGroup = true := by rw [any_isGroup, hp]; simp
    simp only [step, c.property, close, hany, h]
    rw [hp, closeGroup_operators]
    simp

/-- **A token is taken in one of these ways, or not at all.** -/
theorem step_eq_ok_iff {y y' : Yard} {t : Token} : y.step t = .ok y' ↔ Steps y t y' := by
  refine ⟨fun h => ?_, step_of_steps⟩
  unfold step at h
  split at h
  · rename_i hr
    split at h
    · cases h
      exact .name ⟨t, hr⟩ (by assumption)
    · cases h
  · rename_i hr
    split at h
    · cases h
      exact .opening ⟨t, hr⟩ (by assumption)
    · cases h
  · rename_i hr
    unfold close at h
    split at h
    · cases h
    · rename_i hany
      simp only [Bool.not_eq_true, Bool.not_eq_false', any_isGroup] at hany
      obtain ⟨held, o, rest, hp⟩ := exists_group hany
      cases he : y.expectsOperand with
      | true =>
        rw [he] at h
        cases held <;> simp [hp] at h
      | false =>
        simp only [he, hp, closeGroup_operators, Except.ok.injEq] at h
        subst h
        exact .closing ⟨t, hr⟩ he held o rest hp
  · rename_i op hr
    split at h
    · rename_i ha
      split at h
      · cases h
        exact .prefixed ⟨t, op, hr, ha⟩ (by assumption)
      · cases h
    · rename_i ha
      split at h
      · cases h
      · rename_i he
        cases hrel : release op t y.pending y.emitted with
        | error e => rw [hrel] at h; cases h
        | ok r =>
          rw [hrel] at h
          cases h
          exact .infixed ⟨t, op, hr, Connective.arity_eq_two ha⟩ (by simpa using he) _ _ hrel
  all_goals cases h

theorem Steps.isPart {y y' : Yard} {t : Token} (h : Steps y t y') : t.IsPart := by
  cases h with
  | name t h => exact .inl t.property
  | opening t h => exact .inr (.inl t.property)
  | prefixed u h => exact .inr (.inr (.inr ⟨u.op, u.role_eq⟩))
  | infixed b h left emitted hr => exact .inr (.inr (.inr ⟨b.op, b.role_eq⟩))
  | closing c h held o rest hp => exact .inr (.inr (.inl c.property))

theorem Steps.role_ne_finish {y y' : Yard} {t : Token} (h : Steps y t y') : t.role ≠ .finish := by
  rcases h.isPart with hr | hr | hr | ⟨op, hr⟩ <;> simp [hr]

/-! ## Sequences of tokens -/

theorem run_cons {after : Yard → Except ReadError Polish} {y y' : Yard} {t : Token}
    {rest : List Token} (ht : t.role ≠ .finish) (h : y.step t = .ok y') :
    y.run after (t :: rest) = y'.run after rest := by
  simp only [run, ht, if_false, h]
  rfl

end Yard

end Propositional
