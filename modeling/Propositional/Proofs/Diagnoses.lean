import Propositional.Proofs.Lockstep
import Propositional.Proofs.Parentheses
import Propositional.Proofs.Tiling
import Propositional.Proofs.WholeOutput

/-!
# Diagnoses are true

An error names the tokens that it concerns. They are what the error says of them: the operator has
no operand there, and the parenthesis has no partner.

* `ParseError.Justified` — what each error says of the tokens of a text.
* `openGroups`, `Yard.Tracks` — what the state of the yard tells about the tokens that were read;
  `Yard.Tracks.step` is preserved by every token that is taken.
* `Yard.Tracks.justified_of_step`, `Yard.Tracks.justified_of_finish` — errors at a token, and at the
  end.
* `Yard.run_emptyExpression_iff` — which tokens make an empty expression.
* `ParseError.Justified.span` — the span of an error lies in the text.
* `diagnoses_true` — all this for texts.
-/

namespace Propositional

/-! ## What errors say -/

namespace Token

/-- An operand may end with the token. -/
def EndsOperand (t : Token) : Prop := t.role = .identifier ∨ t.role = .closing

/-- An operand begins with the token: a name, a group or a prefix operator. -/
def BeginsOperand (t : Token) : Prop :=
  t.role = .identifier ∨ t.role = .opening ∨ ∃ op, t.role = .operator op ∧ op.kind.arity = 1

/-- Behind the token an operand has to come. -/
def WantsOperand (t : Token) : Prop := t.role = .opening ∨ ∃ op, t.role = .operator op

end Token

/-- What an error says is true of the tokens of a text that has the given length. -/
inductive ParseError.Justified (length : Nat) (tokens : List Token) : ParseError → Prop where
  /-- An operand begins where another one has just ended. -/
  | unexpected {expected : Expectation} {before after : List Token} {p t : Token}
    (h : tokens = before ++ p :: t :: after) (hp : p.EndsOperand) (ht : t.BeginsOperand) :
    Justified length tokens (.unexpected expected t)
  /-- A binary operator comes where an operand has to. -/
  | missingLeft {before after : List Token} {t : Token} (h : tokens = before ++ t :: after)
    (ht : ∃ op, t.role = .operator op ∧ op.kind.arity = 2)
    (hbefore : ∀ p ∈ before.getLast?, p.WantsOperand) :
    Justified length tokens (.missingOperand .left t)
  /-- Behind an operator the group ends, or the text. -/
  | missingRight {before after : List Token} {t u : Token} (h : tokens = before ++ t :: u :: after)
    (ht : ∃ op, t.role = .operator op) (hu : u.role = .closing ∨ u = endToken length) :
    Justified length tokens (.missingOperand .right t)
  /-- The leftmost closing parenthesis without a partner. -/
  | unmatchedClosing {before after : List Token} {t : Token} (h : tokens = before ++ t :: after)
    (ht : t.role = .closing) (hnone : ¬ HasOpening before) (hfirst : AllOpened before) :
    Justified length tokens (.unmatchedClosing t)
  /-- The rightmost opening parenthesis without a partner. The text was read to its end, and its
  closing parentheses have their partners. -/
  | neverClosed {before after : List Token} {t : Token} (h : tokens = before ++ t :: after)
    (ht : t.role = .opening) (hnone : ¬ HasClosing after) (hlast : AllClosed after)
    (hopened : AllOpened tokens) (hend : after.getLast? = some (endToken length)) :
    Justified length tokens (.neverClosed t)
  | emptyParentheses {before after : List Token} {t u : Token}
    (h : tokens = before ++ t :: u :: after) (ht : t.role = .opening) (hu : u.role = .closing) :
    Justified length tokens (.emptyParentheses t u)
  /-- There are no tokens but opening parentheses. -/
  | emptyExpression {groups : List Token} (h : tokens = groups ++ [endToken length])
    (hgroups : ∀ t ∈ groups, t.role = .opening) :
    Justified length tokens (.emptyExpression length)

/-! ## What the yard knows -/

namespace Pending

/-- What is on the stack has the token that it should have. -/
def Proper : Pending → Prop
  | group t => t.role = .opening
  | operator op t => t.role = .operator op

def group? : Pending → Option Token
  | group t => some t
  | operator _ _ => none

theorem Proper.wantsOperand {p : Pending} (h : p.Proper) : p.token.WantsOperand := by
  cases p with
  | group t => exact .inl h
  | operator op t => exact .inr ⟨op, h⟩

theorem Proper.role_of_isGroup {p : Pending} (h : p.Proper) (hgroup : p.isGroup = true) :
    p.token.role = .opening := by
  cases p with
  | group t => exact h
  | operator op t => cases hgroup

end Pending

/-- The opening parentheses of the groups on a stack, the innermost first. -/
def openGroups (pending : List Pending) : List Token := pending.filterMap Pending.group?

theorem openGroups_operator (op : Operator) (t : Token) (pending : List Pending) :
    openGroups (.operator op t :: pending) = openGroups pending := rfl

theorem openGroups_operators_append (held : List (Operator × Token))
    (pending : List Pending) : openGroups (operators held ++ pending) = openGroups pending := by
  induction held with
  | nil => rfl
  | cons p held ih => rw [operators_cons, List.cons_append, openGroups_operator, ih]

theorem openGroups_eq_nil {pending : List Pending} (h : groupCount pending = 0) :
    openGroups pending = [] := by
  obtain ⟨held, rfl⟩ := exists_operators h
  rw [← List.append_nil (operators held), openGroups_operators_append]
  rfl

theorem Token.isNeutral_of_identifier {t : Token} (h : t.role = .identifier) : t.IsNeutral := by
  simp [IsNeutral, h]

theorem Token.isNeutral_of_operator {t : Token} {op : Operator} (h : t.role = .operator op) :
    t.IsNeutral := by
  simp [IsNeutral, h]

theorem isNeutral_endToken (length : Nat) : (endToken length).IsNeutral := ⟨nofun, nofun⟩

namespace Yard

/-- What the yard tells about the tokens that it has read. -/
structure Tracks (y : Yard) (read : List Token) : Prop where
  proper : ∀ p ∈ y.pending, p.Proper
  /-- The groups on the stack are those without a partner. -/
  opened : Opened read (openGroups y.pending)
  /-- While an operand has to come next, the token that was read last is on top of the stack. -/
  last : y.expectsOperand = true → read.getLast? = y.pending.head?.map Pending.token
  ended : y.expectsOperand = false → ∃ t ∈ read.getLast?, t.EndsOperand
  /-- Without a name nothing has left the stack. -/
  unnamed : y.names.isEmpty = true →
    y.expectsOperand = true ∧ read = (y.pending.map Pending.token).reverse

theorem Tracks.start : Tracks start [] where
  proper := List.forall_mem_nil _
  opened := .start
  last _ := rfl
  ended h := by cases h
  unnamed _ := ⟨rfl, rfl⟩

/-- What is under the operators on top of the stack tells as much. -/
theorem Tracks.below {y : Yard} {read : List Token} (h : y.Tracks read)
    {held : List (Operator × Token)} {left : List Pending}
    (hp : y.pending = operators held ++ left) :
    (∀ p ∈ left, p.Proper) ∧ Opened read (openGroups left) := by
  have hproper := h.proper
  have hopened := h.opened
  rw [hp] at hproper hopened
  rw [openGroups_operators_append] at hopened
  exact ⟨fun p hp => hproper p (List.mem_append_right _ hp), hopened⟩

/-- What waits for its operand goes on top of the stack. -/
theorem Tracks.push {y : Yard} {read : List Token} (h : y.Tracks read)
    (he : y.expectsOperand = true) {p : Pending} (hp : p.Proper)
    (hopened : Opened (read ++ [p.token]) (openGroups (p :: y.pending))) :
    { y with pending := p :: y.pending }.Tracks (read ++ [p.token]) where
  proper := List.forall_mem_cons.mpr ⟨hp, h.proper⟩
  opened := hopened
  last _ := List.getLast?_concat
  ended hnot := by
    rw [he] at hnot
    cases hnot
  unnamed hempty := by
    refine ⟨he, ?_⟩
    rw [(h.unnamed hempty).2, List.map_cons, List.reverse_cons]

/-- **A token that is taken keeps the yard informed.** -/
theorem Tracks.step {y y' : Yard} {t : Token} {read : List Token} (h : y.Tracks read)
    (ht : Steps y t y') : y'.Tracks (read ++ [t]) := by
  -- once an operand is complete, there is a name
  have hnamed : y.expectsOperand = false → y.names.isEmpty ≠ true := by
    intro he hempty
    rw [(h.unnamed hempty).1] at he
    cases he
  cases ht with
  | name n he =>
    refine ⟨h.proper, h.opened.neutral (Token.isNeutral_of_identifier n.property), nofun,
      fun _ => ⟨n.val, List.getLast?_concat, .inl n.property⟩, fun hempty => ?_⟩
    rw [isEmpty_add] at hempty
    cases hempty
  | opening o he => exact h.push he (p := .group o.val) o.property (h.opened.push o.property)
  | prefixed u he =>
    exact h.push he (p := .operator u.op u.token) u.role_eq
      (h.opened.neutral (Token.isNeutral_of_operator u.role_eq))
  | infixed b he left emitted hr =>
    obtain ⟨held, hpending, -⟩ := exists_of_release hr
    obtain ⟨hproper, hopened⟩ := h.below hpending
    exact ⟨List.forall_mem_cons.mpr ⟨b.role_eq, hproper⟩,
      hopened.neutral (Token.isNeutral_of_operator b.role_eq),
      fun _ => List.getLast?_concat, nofun, fun hempty => absurd hempty (hnamed he)⟩
  | closing c he held o rest hpending =>
    obtain ⟨hproper, hopened⟩ := h.below hpending
    exact ⟨(List.forall_mem_cons.mp hproper).2, hopened.close c.property, nofun,
      fun _ => ⟨c.val, List.getLast?_concat, .inr c.property⟩,
      fun hempty => absurd hempty (hnamed he)⟩

theorem Tracks.advance {y : Yard} {tokens : List Token} (h : Yard.start.advance tokens = .ok y) :
    y.Tracks tokens :=
  advance_induction (motive := Tracks) Tracks.step Tracks.start h

namespace Tracks

variable {y : Yard} {read : List Token} (h : y.Tracks read)

include h

/-- The token that was read last, if an operand has to come next and the stack is not empty. -/
theorem exists_snoc {p : Pending} {rest : List Pending} (he : y.expectsOperand = true)
    (hp : y.pending = p :: rest) : p.Proper ∧ ∃ before, read = before ++ [p.token] := by
  have hlast := h.last he
  rw [hp] at hlast
  exact ⟨h.proper p (by simp [hp]), List.getLast?_eq_some_iff.mp hlast⟩

/-- If there are no names, and nothing but groups on the stack, these were all that was read. -/
theorem opening_of_unnamed (hnames : y.names.isEmpty = true)
    (hgroups : ∀ p ∈ y.pending, p.isGroup = true) : ∀ t ∈ read, t.role = .opening := by
  intro t ht
  rw [(h.unnamed hnames).2, List.mem_reverse, List.mem_map] at ht
  obtain ⟨p, hp, rfl⟩ := ht
  exact (h.proper p hp).role_of_isGroup (hgroups p hp)

theorem justified_unexpected {t : Token} (hexpects : ¬ y.expectsOperand = true)
    (ht : t.BeginsOperand) (expected : Expectation) (length : Nat) (after : List Token) :
    (ParseError.unexpected expected t).Justified length (read ++ t :: after) := by
  rw [Bool.not_eq_true] at hexpects
  obtain ⟨p, hlast, hp⟩ := h.ended hexpects
  obtain ⟨before, rfl⟩ := List.getLast?_eq_some_iff.mp hlast
  rw [List.append_assoc]
  exact .unexpected rfl hp ht

/-- An error at a closing parenthesis is true. -/
theorem justified_of_close {t : Token} {e : ParseError} (ht : t.role = .closing)
    (he : y.close t = .error (.parse e)) (length : Nat) (after : List Token) :
    e.Justified length (read ++ t :: after) := by
  unfold close at he
  split at he
  · rename_i hnone
    cases he
    have hgroups : groupCount y.pending = 0 := by
      rwa [Bool.not_eq_true', ← Bool.not_eq_true, any_isGroup, not_not] at hnone
    have hopened := h.opened
    rw [openGroups_eq_nil hgroups] at hopened
    exact .unmatchedClosing rfl ht hopened.not_hasOpening hopened.allOpened
  · split at he
    · rename_i o rest hexpects hpending
      cases he
      obtain ⟨hproper, before, rfl⟩ := h.exists_snoc hexpects hpending
      rw [List.append_assoc]
      exact .emptyParentheses rfl hproper ht
    · rename_i op u rest hexpects hpending
      cases he
      obtain ⟨hproper, before, rfl⟩ := h.exists_snoc hexpects hpending
      rw [List.append_assoc]
      exact .missingRight rfl ⟨op, hproper⟩ (.inl ht)
    · cases he

/-- **An error at a token is true**, whatever comes behind it. -/
theorem justified_of_step {t : Token} {e : ParseError} (hpart : t.IsPart) (hsettled : t.Settled)
    (he : y.step t = .error (.parse e)) (length : Nat) (after : List Token) :
    e.Justified length (read ++ t :: after) := by
  rcases hpart with hr | hr | hr | ⟨op, hr⟩
  · simp only [Yard.step, hr] at he
    split at he
    · cases he
    · cases he
      exact h.justified_unexpected ‹_› (.inl hr) _ length after
  · simp only [Yard.step, hr] at he
    split at he
    · cases he
    · cases he
      exact h.justified_unexpected ‹_› (.inr (.inl hr)) _ length after
  · simp only [Yard.step, hr] at he
    exact h.justified_of_close hr he length after
  · simp only [Yard.step, hr] at he
    split at he
    · split at he
      · cases he
      · cases he
        exact h.justified_unexpected ‹_› (.inr (.inr ⟨op, hr, ‹_›⟩)) _ length after
    · rename_i harity
      split at he
      · rename_i hexpects
        cases he
        refine .missingLeft rfl ⟨op, hr, Connective.arity_eq_two harity⟩ fun p hp => ?_
        rw [h.last hexpects] at hp
        obtain ⟨q, hq, rfl⟩ := Option.map_eq_some_iff.mp hp
        exact (h.proper q (List.mem_of_mem_head? hq)).wantsOperand
      · obtain ⟨r, hrelease⟩ := exists_release t (hsettled.side op hr) y.pending y.emitted
        rw [hrelease] at he
        cases he

/-- The innermost group on the stack at the end was never closed: what comes behind its parenthesis
is balanced. -/
theorem justified_neverClosed (held : List (Operator × Token)) {o : Token} {rest : List Pending}
    (hp : y.pending = operators held ++ .group o :: rest) (length : Nat) :
    (ParseError.neverClosed o).Justified length (read ++ [endToken length]) := by
  have hall := (h.opened.neutral (isNeutral_endToken length)).allOpened
  obtain ⟨hproper, hopened⟩ := h.below hp
  cases hopened with
  | @opening before ts _ _ _ ho hts =>
    rw [List.append_assoc] at hall ⊢
    have hbalanced := hts.append (balanced_neutral (isNeutral_endToken length))
    exact .neverClosed rfl ho hbalanced.not_hasClosing hbalanced.allClosed hall
      List.getLast?_concat

/-- If the expression is empty at the end, nothing but opening parentheses was read. -/
theorem opening_of_finish {place n : Int}
    (he : y.finish place = .error (.parse (.emptyExpression n))) :
    ∀ t ∈ read, t.role = .opening := by
  unfold finish at he
  split at he
  · by_cases hgroups : groupCount y.pending = 0
    · obtain ⟨held, hpending⟩ := exists_operators hgroups
      rw [hpending, drain_operators] at he
      cases he
    · obtain ⟨held, o, rest, hpending⟩ := exists_group hgroups
      rw [hpending, drain_group] at he
      cases he
  · rename_i hexpects hpending
    have hlast := h.last hexpects
    rw [hpending] at hlast
    rw [List.getLast?_eq_none_iff.mp hlast]
    exact List.forall_mem_nil _
  · cases he
  · rename_i o rest hexpects hpending
    split at he
    · rename_i hempty
      rw [Bool.and_eq_true] at hempty
      refine h.opening_of_unnamed hempty.1 ?_
      rw [hpending, List.forall_mem_cons]
      exact ⟨rfl, List.all_eq_true.mp hempty.2⟩
    · cases he

/-- **An error at the end is true.** -/
theorem justified_of_finish {e : ParseError} {length : Nat}
    (he : y.finish length = .error (.parse e)) :
    e.Justified length (read ++ [endToken length]) := by
  have hfinish := he
  unfold finish at he
  split at he
  · by_cases hgroups : groupCount y.pending = 0
    · obtain ⟨held, hpending⟩ := exists_operators hgroups
      rw [hpending, drain_operators] at he
      cases he
    · obtain ⟨held, o, rest, hpending⟩ := exists_group hgroups
      rw [hpending, drain_group] at he
      cases he
      exact h.justified_neverClosed held hpending length
  · cases he
    exact .emptyExpression rfl (h.opening_of_finish hfinish)
  · rename_i op u rest hexpects hpending
    cases he
    obtain ⟨hproper, before, rfl⟩ := h.exists_snoc hexpects hpending
    rw [List.append_assoc]
    exact .missingRight rfl ⟨op, hproper⟩ (.inr rfl)
  · rename_i o rest hexpects hpending
    split at he
    · cases he
      exact .emptyExpression rfl (h.opening_of_finish hfinish)
    · cases he
      exact h.justified_neverClosed [] hpending length

end Tracks

/-- No token is refused because the expression is empty: this shows at the end alone. -/
theorem step_ne_emptyExpression {y : Yard} {t : Token} {n : Int} :
    y.step t ≠ .error (.parse (.emptyExpression n)) := by
  intro h
  unfold step at h
  split at h
  · split at h <;> cases h
  · split at h <;> cases h
  · unfold close at h
    split at h
    · cases h
    · split at h <;> cases h
  · rename_i op hr
    split at h
    · split at h <;> cases h
    · split at h
      · cases h
      · cases hrelease : release op t y.pending y.emitted with
        | ok r =>
          rw [hrelease] at h
          cases h
        | error e =>
          obtain ⟨text, rfl⟩ := release_error hrelease
          rw [hrelease] at h
          cases h
  all_goals cases h

/-- Opening parentheses are all taken while an operand has to come next. -/
theorem advance_openings : ∀ {tokens : List Token} {y : Yard}, y.expectsOperand = true →
    (∀ t ∈ tokens, t.role = .opening) →
      y.advance tokens = .ok { y with pending := (tokens.map .group).reverse ++ y.pending }
  | [], y, _, _ => rfl
  | t :: tokens, y, he, h => by
    obtain ⟨ht, h⟩ := List.forall_mem_cons.mp h
    have hmore := advance_openings (y := { y with pending := .group t :: y.pending }) he h
    rw [advance_cons (.opening ⟨t, ht⟩ he) tokens, hmore, List.map_cons, List.reverse_cons,
      List.append_assoc]
    rfl

theorem finish_groups {y : Yard} (he : y.expectsOperand = true) (hnames : y.names.isEmpty = true)
    (hgroups : y.pending.all Pending.isGroup = true) (place : Int) :
    y.finish place = .error (.parse (.emptyExpression place)) := by
  unfold finish
  rw [he]
  cases hp : y.pending with
  | nil => rfl
  | cons p rest =>
    rw [hp, List.all_cons, Bool.and_eq_true] at hgroups
    cases p with
    | group o => simp [hnames, hgroups.2]
    | operator op u => cases hgroups.1

/-- **An expression is empty exactly if there are only opening parentheses** before the end: whatever
else stands there, an error names a token. -/
theorem run_emptyExpression_iff {tokens : List Token} :
    (∃ n, Yard.start.run finishOpen tokens = .error (.parse (.emptyExpression n))) ↔
      ∀ t ∈ beforeEnd tokens, t.role = .opening := by
  constructor
  · rintro ⟨n, h⟩
    rcases run_cases start tokens with ⟨y, place, hy, hrun⟩ | ⟨taken, t, rest, y, e, -, -, ht, hrun⟩
    · exact (Tracks.advance hy).opening_of_finish (hrun.symm.trans h)
    · obtain rfl := Except.error.inj (hrun.symm.trans h)
      exact absurd ht step_ne_emptyExpression
  · intro h
    obtain ⟨place, hrun⟩ := run_of_advance (advance_openings (y := start) rfl h)
    refine ⟨place, hrun.trans (finish_groups rfl rfl ?_ place)⟩
    simp [start, Pending.isGroup]

end Yard

/-! ## Spans -/

theorem ne_endToken {t : Token} (h : t.role ≠ .finish) (length : Nat) : t ≠ endToken length := by
  rintro rfl
  exact h rfl

/-- **The span of an error lies in the text**, and is empty for the empty text only. -/
theorem ParseError.Justified.span {length : Nat} {tokens : List Token} {e : ParseError}
    (h : e.Justified length tokens)
    (hspans : ∀ t ∈ tokens, t ≠ endToken length → 0 ≤ t.start ∧ t.start < t.stop ∧ t.stop ≤ length)
    (horder : tokens.Pairwise fun t u => t.stop ≤ u.start) :
    0 ≤ e.start ∧ e.start ≤ e.stop ∧ e.stop ≤ length ∧ (length ≠ 0 → e.start < e.stop) := by
  have htoken : ∀ t ∈ tokens, t.role ≠ .finish →
      0 ≤ t.start ∧ t.start ≤ t.stop ∧ t.stop ≤ length ∧ (length ≠ 0 → t.start < t.stop) := by
    intro t ht hrole
    obtain ⟨hstart, hlt, hstop⟩ := hspans t ht (ne_endToken hrole length)
    exact ⟨hstart, Int.le_of_lt hlt, hstop, fun _ => hlt⟩
  cases h with
  | @unexpected expected before after p t h hp ht =>
    refine htoken t (by simp [h]) ?_
    rcases ht with hr | hr | ⟨op, hr, -⟩ <;> simp [hr]
  | @missingLeft before after t h ht hbefore =>
    obtain ⟨op, hr, -⟩ := ht
    exact htoken t (by simp [h]) (by simp [hr])
  | @missingRight before after t u h ht hu =>
    obtain ⟨op, hr⟩ := ht
    exact htoken t (by simp [h]) (by simp [hr])
  | @unmatchedClosing before after t h ht hnone hfirst =>
    exact htoken t (by simp [h]) (by simp [ht])
  | @neverClosed before after t h ht hnone hlast hopened hend =>
    exact htoken t (by simp [h]) (by simp [ht])
  | @emptyParentheses before after t u h ht hu =>
    obtain ⟨hstart, hle, -, hlt⟩ := htoken t (by simp [h]) (by simp [ht])
    obtain ⟨-, hle', hstop, hlt'⟩ := htoken u (by simp [h]) (by simp [hu])
    have hbetween : t.stop ≤ u.start := by
      rw [h, List.pairwise_append, List.pairwise_cons] at horder
      exact horder.2.1.1 u (by simp)
    refine ⟨hstart, ?_, hstop, fun hne => ?_⟩
    · show t.start ≤ u.stop
      omega
    · have := hlt hne
      show t.start < u.stop
      omega
  | emptyExpression h hgroups =>
    refine ⟨Int.le_refl 0, ?_, Int.le_refl _, fun hne => ?_⟩
    · show (0 : Int) ≤ length
      omega
    · show (0 : Int) < length
      omega

/-! ## Texts that are refused -/

namespace Lexer.Standard

variable {lexer : Lexer} (h : lexer.Standard) {text : String}

include h

theorem isPart_of_tiles {place stop : Int} {tokens : List Token}
    (htiles : Tiles lexer.classes text place tokens stop) : ∀ t ∈ tokens, t.IsPart := by
  intro t ht
  obtain ⟨hcls, hblank⟩ := htiles.cls_mem t ht
  rcases role_cases (h.known t.cls hcls) with hr | hr | hr | hr | ⟨k, hr⟩
  · simp [TokenClass.isBlank, hr] at hblank
  · exact .inr (.inl hr)
  · exact .inr (.inr (.inl hr))
  · exact .inl hr
  · exact .inr (.inr (.inr ⟨_, hr⟩))

/-- **A text is refused for a true reason.** -/
theorem justified_of_read {e : ParseError} (hr : lexer.read text = .error (.parse e)) :
    e.Justified text.length (lexer.scan text).tokens := by
  rcases (h.scans text).tokens_tile with ⟨hend, ts, hts, htiles⟩ | ⟨a, p, hend, -, htiles, -⟩
  · have hpart := h.isPart_of_tiles htiles
    have hrun := Lexer.ofTokens_of_read_error hend hr
    rw [hts, Polish.ofTokens] at hrun
    rw [hts]
    rcases Yard.advance_cases ts .start with ⟨y, hy⟩ | ⟨taken, t, rest, y, e', rfl, hy, he⟩
    · rw [Yard.run_append hy] at hrun
      exact (Yard.Tracks.advance hy).justified_of_finish hrun
    · have ht : t ∈ taken ++ t :: rest := by simp
      have hplain := h.plain t (htiles.cls_mem t ht).1
      rw [List.append_assoc, Yard.run_append hy, List.cons_append,
        Yard.run_refused hplain.2 he] at hrun
      cases hrun
      rw [List.append_assoc]
      exact (Yard.Tracks.advance hy).justified_of_step (hpart t ht) hplain.1 he _ _
  · have hpart := h.isPart_of_tiles htiles
    rcases h.plain.read_failed hend with ⟨-, hread⟩ | ⟨before, t, rest, e', htokens, hfirst, hread⟩
    · rw [hr] at hread
      cases hread
    · rw [hr] at hread
      cases hread
      obtain ⟨y, hy, he⟩ := hfirst.refused.refused
      have ht : t ∈ (lexer.scan text).tokens := by simp [htokens]
      have hplain := h.plain t (htiles.cls_mem t ht).1
      rw [htokens]
      exact (Yard.Tracks.advance hy).justified_of_step (hpart t ht) hplain.1 he _ _

/-- The tokens of a text lie in it one behind the other, and only the closing one is empty. -/
theorem spans_tokens (text : String) :
    (lexer.scan text).tokens.Pairwise (fun t u => t.stop ≤ u.start) ∧
      ∀ t ∈ (lexer.scan text).tokens, t ≠ endToken text.length →
        0 ≤ t.start ∧ t.start < t.stop ∧ t.stop ≤ text.length := by
  rcases (h.scans text).tokens_tile with ⟨-, ts, hts, htiles⟩ | ⟨a, p, -, hchar, htiles, -⟩
  · rw [hts]
    constructor
    · refine List.pairwise_append.mpr ⟨htiles.pairwise, List.pairwise_singleton _ _, ?_⟩
      intro t ht u hu
      obtain ⟨-, -, hstop, -⟩ := htiles.spans t ht
      rwa [List.mem_singleton.mp hu]
    · intro t ht hne
      rcases List.mem_append.mp ht with ht | ht
      · obtain ⟨hstart, hlt, hstop, -⟩ := htiles.spans t ht
        exact ⟨hstart, hlt, hstop⟩
      · exact absurd (List.mem_singleton.mp ht) hne
  · refine ⟨htiles.pairwise, fun t ht _ => ?_⟩
    obtain ⟨hstart, hlt, hstop, -⟩ := htiles.spans t ht
    obtain ⟨hp, -⟩ := List.getElem?_eq_some_iff.mp hchar
    rw [String.length_toList] at hp
    exact ⟨hstart, hlt, by omega⟩

/-- A character that is reported stands in the text, and no class has a token there. -/
theorem stuck_of_read {a : Char} {p : Nat}
    (hr : lexer.read text = .error (.lex (.unrecognized a p))) :
    text.toList[p]? = some a ∧ ∀ c ∈ lexer.classes, c.matchAt text p = .ok none := by
  rcases h.read_error hr with ⟨a', p', heq, hfailed⟩ | ⟨e', heq⟩
  · cases heq
    rcases (h.scans text).tokens_tile with ⟨hend, -⟩ | ⟨a', p', hend, hchar, -, hnone⟩
    · rw [hfailed] at hend
      cases hend
    · rw [hfailed] at hend
      cases hend
      exact ⟨hchar, hnone⟩
  · cases heq

/-- **A diagnosis concerns a part of the text**, which is empty for the empty text only. -/
theorem span_of_read {e : ReadError} (hr : lexer.read text = .error e) :
    ∃ d, e.diagnostic? = some d ∧ 0 ≤ d.start ∧ d.start ≤ d.stop ∧ d.stop ≤ text.length ∧
      (text ≠ "" → d.start < d.stop) := by
  rcases h.read_error hr with ⟨a, p, rfl, -⟩ | ⟨e', rfl⟩
  · obtain ⟨hp, -⟩ := List.getElem?_eq_some_iff.mp (h.stuck_of_read hr).1
    rw [String.length_toList] at hp
    refine ⟨.unrecognized (String.singleton a) p, rfl, ?_⟩
    simp only [Diagnostic.unrecognized]
    omega
  · obtain ⟨horder, hspans⟩ := h.spans_tokens text
    obtain ⟨hstart, hle, hstop, hlt⟩ := (h.justified_of_read hr).span hspans horder
    refine ⟨.ofParseError e', rfl, hstart, hle, hstop, fun hne => hlt fun hzero => hne ?_⟩
    exact String.length_eq_zero_iff.mp hzero

end Lexer.Standard

/-- **Every diagnosis is true of the text that it points into.** A text that the whole language or
its core refuses leads to a diagnosis with a span in the text, which is empty for the empty text
only. Either it concerns one character, where no class of the language has a token; or what the
error says is true of the tokens of the text. -/
theorem diagnoses_true {lexer : Lexer} (hlexer : lexer = .default ∨ lexer = .core) {text : String}
    {e : ReadError} (hr : lexer.read text = .error e) :
    ∃ d, e.diagnostic? = some d ∧ 0 ≤ d.start ∧ d.start ≤ d.stop ∧ d.stop ≤ text.length ∧
      (text ≠ "" → d.start < d.stop) ∧
      ((∃ (a : Char) (p : Nat), e = .lex (.unrecognized a p) ∧ d.start = p ∧ d.stop = p + 1 ∧
          text.toList[p]? = some a ∧ ∀ c ∈ lexer.classes, c.matchAt text p = .ok none) ∨
        ∃ e', e = .parse e' ∧ d.kind = some e'.kind ∧ d.start = e'.start ∧ d.stop = e'.stop ∧
          e'.Justified text.length (lexer.scan text).tokens) := by
  have h : lexer.Standard := Lexer.standard_of_eq hlexer
  obtain ⟨d, hd, hstart, hle, hstop, hlt⟩ := h.span_of_read hr
  refine ⟨d, hd, hstart, hle, hstop, hlt, ?_⟩
  rcases h.read_error hr with ⟨a, p, rfl, -⟩ | ⟨e', rfl⟩
  · obtain ⟨hchar, hnone⟩ := h.stuck_of_read hr
    cases hd
    exact .inl ⟨a, p, rfl, rfl, rfl, hchar, hnone⟩
  · cases hd
    exact .inr ⟨e', rfl, rfl, rfl, rfl, h.justified_of_read hr⟩

/-- The outer group of `(p & (q)` is never closed, and the core does not know `^`. -/
theorem diagnoses_true_group :
    (∃ t, Lexer.default.read "(p & (q)" = .error (.parse (.neverClosed t)) ∧ t.start = 0 ∧
      (ParseError.neverClosed t).Justified 8 (Lexer.default.scan "(p & (q)").tokens) ∧
    ∀ c ∈ Lexer.core.classes, c.matchAt "p ^ q" 2 = .ok none := by
  constructor
  · have hr : Lexer.default.read "(p & (q)" =
        .error (.parse (.neverClosed ⟨.openParenthesis, "(", 0, 1⟩)) := rfl
    obtain ⟨d, -, -, -, -, -, ⟨a, p, heq, -⟩ | ⟨e', heq, -, -, -, hjustified⟩⟩ :=
      diagnoses_true (.inl rfl) hr
    · cases heq
    · cases heq
      exact ⟨_, hr, rfl, hjustified⟩
  · have hr : Lexer.core.read "p ^ q" = .error (.lex (.unrecognized '^' 2)) := rfl
    obtain ⟨d, -, -, -, -, -, ⟨a, p, heq, -, -, -, hnone⟩ | ⟨e', heq, -⟩⟩ :=
      diagnoses_true (.inr rfl) hr
    · cases heq
      exact hnone
    · cases heq

end Propositional
