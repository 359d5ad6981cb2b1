import Mathlib.Data.List.Forall2
import Propositional.Proofs.YardRuns

/-!
# Two runs side by side

The yard decides by the classes of its tokens alone. So two runs over tokens that have the same
classes, one after the other, stay in step: whatever relation holds between the tokens that are read
holds between the tokens in their outputs, on their stacks and in their errors.

* `Agree` — both computations succeed with related results, or both fail with related errors.
* `Yard.Alike` — two yards that differ in related tokens only; `Yard.Alike.step` is preserved by
  every token.
* `Yard.Alike.finish`, `Yard.Alike.run` — the end of the tokens, and whole runs.
* `ReadError.Alike` — two errors with the same cause; `ParseError.Alike.kind` and its siblings say
  where their spans come from.
-/

namespace Propositional

/-! ## Outcomes -/

/-- Both computations succeed with related results, or both fail with related errors. -/
inductive Agree {ε α : Type} (E : ε → ε → Prop) (A : α → α → Prop) :
    Except ε α → Except ε α → Prop where
  | ok {a a' : α} (h : A a a') : Agree E A (.ok a) (.ok a')
  | error {e e' : ε} (h : E e e') : Agree E A (.error e) (.error e')

theorem Agree.bind {ε α β : Type} {E : ε → ε → Prop} {A : α → α → Prop} {B : β → β → Prop}
    {x x' : Except ε α} {f f' : α → Except ε β} (h : Agree E A x x')
    (hf : ∀ {a a'}, x = .ok a → A a a' → Agree E B (f a) (f' a')) :
    Agree E B (x >>= f) (x' >>= f') := by
  cases h with
  | ok h => exact hf rfl h
  | error h => exact .error h

theorem Agree.map {ε α β : Type} {E : ε → ε → Prop} {A : α → α → Prop} {B : β → β → Prop}
    {x x' : Except ε α} {g g' : α → β} (h : Agree E A x x')
    (hg : ∀ {a a'}, A a a' → B (g a) (g' a')) : Agree E B (x.map g) (x'.map g') := by
  cases h with
  | ok h => exact .ok (hg h)
  | error h => exact .error h

theorem Agree.eq_error_iff {ε α : Type} {A : α → α → Prop} {x x' : Except ε α}
    (h : Agree (· = ·) A x x') (e : ε) : x = .error e ↔ x' = .error e := by
  cases h with
  | ok h => exact iff_of_false nofun nofun
  | error h => rw [h]

/-- Two errors of the same cause. The tokens that they concern are related, and so are the places
of the end. -/
inductive ParseError.Alike (R : Token → Token → Prop) (P : Int → Int → Prop) :
    ParseError → ParseError → Prop where
  | unexpected (expected : Expectation) {t t' : Token} (h : R t t') :
    Alike R P (.unexpected expected t) (.unexpected expected t')
  | missingOperand (side : Side) {t t' : Token} (h : R t t') :
    Alike R P (.missingOperand side t) (.missingOperand side t')
  | unmatchedClosing {t t' : Token} (h : R t t') :
    Alike R P (.unmatchedClosing t) (.unmatchedClosing t')
  | neverClosed {t t' : Token} (h : R t t') : Alike R P (.neverClosed t) (.neverClosed t')
  | emptyParentheses {o o' c c' : Token} (ho : R o o') (hc : R c c') :
    Alike R P (.emptyParentheses o c) (.emptyParentheses o' c')
  | emptyExpression {n n' : Int} (h : P n n') : Alike R P (.emptyExpression n) (.emptyExpression n')

/-- Two errors of the same cause, that of a token which cannot be compared or has no meaning
included. -/
inductive ReadError.Alike (R : Token → Token → Prop) (P : Int → Int → Prop) :
    ReadError → ReadError → Prop where
  | parse {e e' : ParseError} (h : ParseError.Alike R P e e') : Alike R P (.parse e) (.parse e')
  | side {t t' : Token} (h : R t t') (text : String) : Alike R P (.side t text) (.side t' text)
  | polish (e : PolishError) : Alike R P (.polish e) (.polish e)

namespace ParseError.Alike

variable {R : Token → Token → Prop} {P : Int → Int → Prop} {e e' : ParseError}

theorem kind (h : Alike R P e e') : e'.kind = e.kind := by
  cases h <;> rfl

/-- The spans begin with related tokens, unless there is no operand at all. -/
theorem start (h : Alike R P e e') : (∃ t t', R t t' ∧ e.start = t.start ∧ e'.start = t'.start) ∨
    ∃ n n', e = .emptyExpression n ∧ e' = .emptyExpression n' := by
  cases h with
  | emptyExpression h => exact .inr ⟨_, _, rfl, rfl⟩
  | emptyParentheses ho hc => exact .inl ⟨_, _, ho, rfl, rfl⟩
  | _ => exact .inl ⟨_, _, ‹R _ _›, rfl, rfl⟩

/-- The spans end with related tokens, or in related places. -/
theorem stop (h : Alike R P e e') : (∃ t t', R t t' ∧ e.stop = t.stop ∧ e'.stop = t'.stop) ∨
    P e.stop e'.stop := by
  cases h with
  | emptyExpression h => exact .inr h
  | emptyParentheses ho hc => exact .inl ⟨_, _, hc, rfl, rfl⟩
  | _ => exact .inl ⟨_, _, ‹R _ _›, rfl, rfl⟩

end ParseError.Alike

/-! ## Stacks -/

/-- Groups that were opened by related tokens, or the same operator with related tokens. -/
inductive Pending.Alike (R : Token → Token → Prop) : Pending → Pending → Prop where
  | group {t t' : Token} (h : R t t') : Alike R (.group t) (.group t')
  | operator (op : Operator) {t t' : Token} (h : R t t') :
    Alike R (.operator op t) (.operator op t')

namespace Pending.Alike

variable {R : Token → Token → Prop}

theorem token {p p' : Pending} (h : Alike R p p') : R p.token p'.token := by
  cases h with
  | group h => exact h
  | operator op h => exact h

theorem isGroup {p p' : Pending} (h : Alike R p p') : p'.isGroup = p.isGroup := by
  cases h <;> rfl

theorem any_isGroup {ps ps' : List Pending} (h : List.Forall₂ (Alike R) ps ps') :
    ps'.any Pending.isGroup = ps.any Pending.isGroup := by
  induction h with
  | nil => rfl
  | cons hp _ ih => rw [List.any_cons, List.any_cons, hp.isGroup, ih]

theorem all_isGroup {ps ps' : List Pending} (h : List.Forall₂ (Alike R) ps ps') :
    ps'.all Pending.isGroup = ps.all Pending.isGroup := by
  induction h with
  | nil => rfl
  | cons hp _ ih => rw [List.all_cons, List.all_cons, hp.isGroup, ih]

end Pending.Alike

namespace Yard

variable {R : Token → Token → Prop} {P : Int → Int → Prop}

/-- A stack and an output that differ from others in related tokens only. -/
def StackAlike (R : Token → Token → Prop) (s s' : List Pending × List Token) : Prop :=
  List.Forall₂ (Pending.Alike R) s.1 s'.1 ∧ List.Forall₂ R s.2 s'.2

section

variable {pending pending' : List Pending} {emitted emitted' : List Token}

theorem release_alike {op : Operator} {t t' : Token} (ht : R t t')
    (hp : List.Forall₂ (Pending.Alike R) pending pending') (he : List.Forall₂ R emitted emitted') :
    Agree (ReadError.Alike R P) (StackAlike R) (release op t pending emitted)
      (release op t' pending' emitted') := by
  induction hp generalizing emitted emitted' with
  | nil => exact .ok ⟨.nil, he⟩
  | cons hfirst hrest ih =>
    cases hfirst with
    | group ho => exact .ok ⟨.cons (.group ho) hrest, he⟩
    | operator before hu =>
      unfold release
      cases completes op before with
      | error text => exact .error (.side ht text)
      | ok b =>
        cases b with
        | false => exact .ok ⟨.cons (.operator before hu) hrest, he⟩
        | true => exact ih (.cons hu he)

theorem closeGroup_alike (hp : List.Forall₂ (Pending.Alike R) pending pending')
    (he : List.Forall₂ R emitted emitted') :
    StackAlike R (closeGroup pending emitted) (closeGroup pending' emitted') := by
  induction hp generalizing emitted emitted' with
  | nil => exact ⟨.nil, he⟩
  | cons hfirst hrest ih =>
    cases hfirst with
    | group ho => exact ⟨hrest, he⟩
    | operator op hu => exact ih (.cons hu he)

theorem drain_alike (hp : List.Forall₂ (Pending.Alike R) pending pending')
    (he : List.Forall₂ R emitted emitted') :
    Agree (ReadError.Alike R P) (List.Forall₂ R) (drain pending emitted)
      (drain pending' emitted') := by
  induction hp generalizing emitted emitted' with
  | nil => exact .ok (List.rel_reverse he)
  | cons hfirst hrest ih =>
    cases hfirst with
    | group ho => exact .error (.parse (.neverClosed ho))
    | operator op hu => exact ih (.cons hu he)

end

/-! ## Yards -/

/-- Two yards that differ in related tokens, and perhaps in the names that they have collected. -/
structure Alike (R : Token → Token → Prop) (y y' : Yard) : Prop where
  emitted : List.Forall₂ R y.emitted y'.emitted
  pending : List.Forall₂ (Pending.Alike R) y.pending y'.pending
  names : y'.names.isEmpty = y.names.isEmpty
  expectsOperand : y'.expectsOperand = y.expectsOperand

theorem Alike.start : Alike R start start := ⟨.nil, .nil, rfl, rfl⟩

theorem isEmpty_add (s : NameSet) (name : String) : (s.add name).isEmpty = false := by
  unfold NameSet.isEmpty
  cases hc : s.contains name with
  | true =>
    rw [NameSet.add_of_contains hc, List.isEmpty_eq_false_iff]
    exact List.ne_nil_of_mem (NameSet.contains_iff.mp hc)
  | false => simp [NameSet.names_add_of_not_contains hc]

namespace Alike

variable {y y' : Yard} {t t' : Token}

theorem close (h : Alike R y y') (ht : R t t') :
    Agree (ReadError.Alike R P) (Alike R) (y.close t) (y'.close t') := by
  unfold Yard.close
  rw [Pending.Alike.any_isGroup h.pending, h.expectsOperand]
  cases y.pending.any Pending.isGroup with
  | false => exact .error (.parse (.unmatchedClosing ht))
  | true =>
    have hclosed := closeGroup_alike h.pending h.emitted
    have hpending := h.pending
    cases y.expectsOperand with
    | false => exact .ok ⟨hclosed.2, hclosed.1, h.names, rfl⟩
    | true =>
      generalize y.pending = pending at *
      generalize y'.pending = pending' at *
      cases hpending with
      | nil => exact .ok ⟨h.emitted, .nil, h.names, rfl⟩
      | cons hfirst hrest =>
        cases hfirst with
        | group ho => exact .error (.parse (.emptyParentheses ho ht))
        | operator op hu => exact .error (.parse (.missingOperand .right hu))

/-- **Two yards stay in step** if the tokens that come next are related and have the same class. -/
theorem step (h : Alike R y y') (ht : R t t') (hcls : t'.cls = t.cls) :
    Agree (ReadError.Alike R P) (Alike R) (y.step t) (y'.step t') := by
  have hrole : t'.role = t.role := congrArg TokenClass.role hcls
  unfold Yard.step
  rw [hrole, h.expectsOperand]
  cases t.role with
  | identifier =>
    cases y.expectsOperand with
    | true =>
      refine .ok ⟨.cons ht h.emitted, h.pending, ?_, rfl⟩
      rw [isEmpty_add, isEmpty_add]
    | false => exact .error (.parse (.unexpected _ ht))
  | opening =>
    cases y.expectsOperand with
    | true => exact .ok ⟨h.emitted, .cons (.group ht) h.pending, h.names, rfl⟩
    | false => exact .error (.parse (.unexpected _ ht))
  | closing => exact h.close ht
  | operator op =>
    by_cases harity : op.kind.arity = 1
    · simp only [harity, if_true]
      cases y.expectsOperand with
      | true => exact .ok ⟨h.emitted, .cons (.operator op ht) h.pending, h.names, rfl⟩
      | false => exact .error (.parse (.unexpected _ ht))
    · simp only [harity, if_false]
      cases y.expectsOperand with
      | true => exact .error (.parse (.missingOperand .left ht))
      | false =>
        refine (release_alike ht h.pending h.emitted).bind fun _ hs => ?_
        exact .ok ⟨hs.2, .cons (.operator op ht) hs.1, h.names, rfl⟩
  | unbound => exact .error (.polish .unbound)
  | _ => exact .error (.parse (.unexpected _ ht))

/-- The output of both runs, or the errors at their ends. -/
theorem finish (h : Alike R y y') {place place' : Int}
    (hplace : y.expectsOperand = true → P place place') :
    Agree (ReadError.Alike R P) (fun p p' => List.Forall₂ R p.tokens p'.tokens) (y.finish place)
      (y'.finish place') := by
  unfold Yard.finish
  rw [h.expectsOperand, h.names]
  have hpending := h.pending
  cases he : y.expectsOperand with
  | false => exact (drain_alike h.pending h.emitted).bind fun _ hs => .ok hs
  | true =>
    have hplace := hplace he
    generalize y.pending = pending at *
    generalize y'.pending = pending' at *
    cases hpending with
    | nil => exact .error (.parse (.emptyExpression hplace))
    | cons hfirst hrest =>
      cases hfirst with
      | operator op hu => exact .error (.parse (.missingOperand .right hu))
      | group ho =>
        simp only [Pending.Alike.all_isGroup hrest]
        split
        · exact .error (.parse (.emptyExpression hplace))
        · exact .error (.parse (.neverClosed ho))

end Alike

/-- While an operand has to come next, a token that was taken is on the stack. -/
theorem Steps.pending_ne_nil {y y' : Yard} {t : Token} (h : Steps y t y')
    (he : y'.expectsOperand = true) : y'.pending ≠ [] := by
  cases h with
  | name t h => cases he
  | opening t h => exact List.cons_ne_nil _ _
  | prefixed u h => exact List.cons_ne_nil _ _
  | infixed b h left emitted hr => exact List.cons_ne_nil _ _
  | closing c h held o rest hp => cases he

/-- **Two runs stay in step to their ends**, whether they come there or break off before. The place
of the end is that of a token, unless there are no tokens at all. -/
theorem Alike.run (hcls : ∀ {t t'}, R t t' → t'.cls = t.cls)
    (hstop : ∀ {t t'}, R t t' → P t.stop t'.stop) {tokens tokens' : List Token}
    (ht : List.Forall₂ R tokens tokens') : ∀ {y y' : Yard}, Alike R y y' →
      (y.expectsOperand = true → y.pending = [] → tokens = [] → P 0 0) →
        Agree (ReadError.Alike R P) (fun p p' => List.Forall₂ R p.tokens p'.tokens)
          (y.run finishOpen tokens) (y'.run finishOpen tokens') := by
  induction ht with
  | nil =>
    intro y y' h hempty
    refine h.finish fun he => ?_
    have hpending := h.pending
    cases hp : y.pending with
    | nil =>
      rw [hp] at hpending
      rw [List.forall₂_nil_left_iff.mp hpending]
      exact hempty he hp rfl
    | cons p ps =>
      rw [hp] at hpending
      obtain ⟨p', ps', hfirst, -, hp'⟩ := List.forall₂_cons_left_iff.mp hpending
      rw [hp']
      exact hstop hfirst.token
  | @cons t t' rest rest' ht _ ih =>
    intro y y' h _
    have hrole : t'.role = t.role := congrArg TokenClass.role (hcls ht)
    unfold Yard.run
    rw [hrole]
    by_cases hfinish : t.role = .finish
    · rw [if_pos hfinish, if_pos hfinish]
      exact h.finish fun _ => hstop ht
    · rw [if_neg hfinish, if_neg hfinish]
      refine (h.step ht (hcls ht)).bind fun hz halike => ih halike fun he hnil => ?_
      exact absurd hnil ((step_eq_ok_iff.mp hz).pending_ne_nil he)

end Yard

/-- **Tokens of the same classes are accepted or refused alike.** -/
theorem Polish.ofTokens_alike {R : Token → Token → Prop} {P : Int → Int → Prop}
    (hcls : ∀ {t t'}, R t t' → t'.cls = t.cls) (hstop : ∀ {t t'}, R t t' → P t.stop t'.stop)
    {tokens tokens' : List Token} (ht : List.Forall₂ R tokens tokens')
    (hempty : tokens = [] → P 0 0) :
    Agree (ReadError.Alike R P) (fun p p' => List.Forall₂ R p.tokens p'.tokens)
      (Polish.ofTokens tokens) (Polish.ofTokens tokens') :=
  Yard.Alike.start.run hcls hstop ht fun _ _ => hempty

end Propositional
