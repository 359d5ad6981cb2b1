import Mathlib.Data.Set.Defs
import Propositional.Proofs.Grammar
import Propositional.Reading.Basic

/-!
# How precedence groups an expression

A chain is split at an operator of its lowest precedence: at the rightmost one where that level
groups to the left, at the leftmost one where it groups to the right. Both parts are read in the
same way. Groups are read as what is in them, and a prefix operator belongs to the operand behind it.

* `Chain.Reads`, `Operand.Reads` — the formula of concrete syntax, and `IsReading` of tokens.
* `Coherent` — operators for which this leaves nothing open: prefix operators bind tighter than
  binary ones, and a level of binary operators has one side.
* `Chain.exists_reads` — under coherent operators every chain has a reading.
-/

namespace Propositional

/-! ## Chains in two parts -/

namespace Chain

/-- The binary operators between the operands of a chain, without those in groups. -/
def infixes : Chain → List InfixToken
  | .last _ => []
  | .link _ b e => b :: e.infixes

/-- The operands of a chain, without those in groups. -/
def operands : Chain → List Operand
  | .last x => [x]
  | .link x _ e => x :: e.operands

/-- Two chains with a binary operator between them. -/
def join : Chain → InfixToken → Chain → Chain
  | .last x, b, r => .link x b r
  | .link x c l, b, r => .link x c (l.join b r)

theorem tokens_join : ∀ (l : Chain) (b : InfixToken) (r : Chain),
    (l.join b r).tokens = l.tokens ++ b.token :: r.tokens
  | .last x, b, r => rfl
  | .link x c l, b, r => by simp [join, tokens, tokens_join l]

theorem infixes_join : ∀ (l : Chain) (b : InfixToken) (r : Chain),
    (l.join b r).infixes = l.infixes ++ b :: r.infixes
  | .last x, b, r => rfl
  | .link x c l, b, r => by simp [join, infixes, infixes_join l]

theorem operands_join : ∀ (l : Chain) (b : InfixToken) (r : Chain),
    (l.join b r).operands = l.operands ++ r.operands
  | .last x, b, r => rfl
  | .link x c l, b, r => by simp [join, operands, operands_join l]

theorem mem_tokens_of_mem_infixes {b : InfixToken} :
    ∀ {e : Chain}, b ∈ e.infixes → b.token ∈ e.tokens
  | .last y, h => by simp [infixes] at h
  | .link y c e, h => by
    simp only [infixes, List.mem_cons] at h
    rcases h with rfl | h
    · simp [tokens]
    · simp [tokens, mem_tokens_of_mem_infixes h]

/-- The operator between the two parts has the lowest precedence of all. Of several such operators
it is the rightmost if their level groups to the left, and the leftmost if it groups to the right. -/
structure IsSplit (l : Chain) (b : InfixToken) (r : Chain) : Prop where
  lowest_left : ∀ o ∈ l.infixes, b.op.precedence ≤ o.op.precedence
  lowest_right : ∀ o ∈ r.infixes, b.op.precedence ≤ o.op.precedence
  rightmost : b.op.associativity = .left → ∀ o ∈ r.infixes, b.op.precedence ≠ o.op.precedence
  leftmost : b.op.associativity = .right → ∀ o ∈ l.infixes, b.op.precedence ≠ o.op.precedence

theorem IsSplit.lowest {l r : Chain} {b : InfixToken} (h : l.IsSplit b r) :
    ∀ o ∈ (l.join b r).infixes, b.op.precedence ≤ o.op.precedence := by
  intro o ho
  simp only [infixes_join, List.mem_append, List.mem_cons] at ho
  rcases ho with ho | rfl | ho
  · exact h.lowest_left o ho
  · exact Int.le_refl _
  · exact h.lowest_right o ho

end Chain

/-! ## Readings -/

mutual

/-- The formula that an operand is read as. -/
inductive Operand.Reads : Operand → Formula → Prop where
  | name (t : NameToken) : Operand.Reads (.name t) (.var t.val.value)
  | prefixed (u : PrefixToken) {x : Operand} {f : Formula} (h : Operand.Reads x f) :
    Operand.Reads (.prefixed u x) (.unary u.op.kind f)
  | group (o : OpeningToken) (c : ClosingToken) {e : Chain} {f : Formula} (h : Chain.Reads e f) :
    Operand.Reads (.group o e c) f

/-- The formula that a chain is read as. -/
inductive Chain.Reads : Chain → Formula → Prop where
  | last {x : Operand} {f : Formula} (h : Operand.Reads x f) : Chain.Reads (.last x) f
  | split {l r : Chain} {b : InfixToken} {f g : Formula} (h : l.IsSplit b r)
    (hl : Chain.Reads l f) (hr : Chain.Reads r g) :
    Chain.Reads (l.join b r) (.binary b.op.kind f g)

end

/-- The formula is what the tokens are read as. -/
def IsReading (tokens : List Token) (f : Formula) : Prop :=
  ∃ e : Chain, e.tokens = tokens ∧ e.Reads f

/-! ## Coherent operators -/

/-- The operators of some token classes. -/
def operatorsOf (classes : Set TokenClass) : Set Operator :=
  {op | ∃ c ∈ classes, c.role = .operator op}

/-- Every prefix operator binds tighter than every binary one, and binary operators of the same
precedence group to the same side. -/
structure Coherent (ops : Set Operator) : Prop where
  side : ∀ a ∈ ops, a.associativity = .left ∨ a.associativity = .right
  tighter : ∀ u ∈ ops, ∀ b ∈ ops, u.kind.arity = 1 → b.kind.arity = 2 → b.precedence < u.precedence
  level : ∀ a ∈ ops, ∀ b ∈ ops, a.kind.arity = 2 → b.kind.arity = 2 →
    a.precedence = b.precedence → a.associativity = b.associativity

/-- The operators that occur in some tokens belong to a set. -/
def Within (ops : Set Operator) (tokens : List Token) : Prop :=
  ∀ t ∈ tokens, ∀ op, t.role = .operator op → op ∈ ops

theorem Within.mono {ops : Set Operator} {tokens more : List Token} (h : Within ops more)
    (hsub : ∀ t ∈ tokens, t ∈ more) : Within ops tokens :=
  fun t ht => h t (hsub t ht)

theorem Within.infixes {ops : Set Operator} {e : Chain} (h : Within ops e.tokens) :
    ∀ b ∈ e.infixes, b.op ∈ ops :=
  fun b hb => h b.token (Chain.mem_tokens_of_mem_infixes hb) b.op b.role_eq

/-- Operators that bind as their connectives do are coherent. -/
theorem coherent_ofKind {ops : Set Operator} (h : ∀ op ∈ ops, ∃ k, op = .ofKind k) :
    Coherent ops where
  side a ha := by
    obtain ⟨k, rfl⟩ := h a ha
    cases k <;> simp [Operator.ofKind, Connective.associativity]
  tighter u hu b hb := by
    obtain ⟨j, rfl⟩ := h u hu
    obtain ⟨k, rfl⟩ := h b hb
    cases j <;> cases k <;> simp [Operator.ofKind, Connective.arity, Connective.precedence]
  level a ha b hb := by
    obtain ⟨j, rfl⟩ := h a ha
    obtain ⟨k, rfl⟩ := h b hb
    cases j <;> cases k <;>
      simp [Operator.ofKind, Connective.arity, Connective.precedence, Connective.associativity]

/-- The operators of the whole language are coherent, and so are those of every part of it. -/
theorem coherent_default {classes : Set TokenClass} (h : ∀ c ∈ classes, c ∈ defaultClasses) :
    Coherent (operatorsOf classes) := by
  refine coherent_ofKind ?_
  rintro op ⟨c, hc, hop⟩
  have hmem := h c hc
  simp only [TokenClass.defaultClasses_eq, List.mem_cons, List.not_mem_nil, or_false] at hmem
  rcases hmem with rfl | rfl | rfl | rfl | rfl | rfl | rfl | rfl | rfl | rfl <;> cases hop <;>
    exact ⟨_, rfl⟩

/-! ## Every chain has a reading -/

/-- A chain is a single operand, or there is a place to split it. By induction on the chain: its
first operator is compared with the one that splits the rest. -/
theorem Chain.exists_split {ops : Set Operator} (hc : Coherent ops) : ∀ {e : Chain},
    (∀ b ∈ e.infixes, b.op ∈ ops) →
      (∃ x, e = .last x) ∨ ∃ (l : Chain) (b : InfixToken) (r : Chain), e = l.join b r ∧ l.IsSplit b r
  | .last x, _ => .inl ⟨x, rfl⟩
  | .link x b e, hops => by
    right
    have hb : b.op ∈ ops := hops b (by simp [infixes])
    have he : ∀ c ∈ e.infixes, c.op ∈ ops := fun c hmem => hops c (by simp [infixes, hmem])
    rcases exists_split hc he with ⟨y, rfl⟩ | ⟨l, m, r, rfl, hsplit⟩
    · exact ⟨.last x, b, .last y, rfl, by simp [infixes], by simp [infixes], by simp [infixes],
        by simp [infixes]⟩
    have hm : m.op ∈ ops := he m (by simp [infixes_join])
    by_cases hfirst : b.op.precedence < m.op.precedence ∨
        (b.op.precedence = m.op.precedence ∧ b.op.associativity = .right)
    · refine ⟨.last x, b, l.join m r, rfl, by simp [infixes], fun o ho => ?_, fun hleft o ho => ?_,
        by simp [infixes]⟩
      · have := hsplit.lowest o ho
        rcases hfirst with h | ⟨h, -⟩ <;> omega
      · have := hsplit.lowest o ho
        rcases hfirst with h | ⟨-, hright⟩
        · omega
        · rw [hleft] at hright
          cases hright
    · refine ⟨.link x b l, m, r, rfl, fun o ho => ?_, hsplit.lowest_right, hsplit.rightmost,
        fun hright o ho => ?_⟩
      · simp only [infixes, List.mem_cons] at ho
        rcases ho with rfl | ho
        · omega
        · exact hsplit.lowest_left o ho
      · simp only [infixes, List.mem_cons] at ho
        rcases ho with rfl | ho
        · intro heq
          have hside := hc.level o.op hb m.op hm o.arity_eq m.arity_eq heq.symm
          exact hfirst (.inr ⟨heq.symm, hside.trans hright⟩)
        · exact hsplit.leftmost hright o ho

/-- A chain of operands that have readings has one. By induction on the number of its operators. -/
theorem Chain.exists_reads_of_operands {ops : Set Operator} (hc : Coherent ops) (n : Nat) :
    ∀ e : Chain, e.infixes.length ≤ n → (∀ b ∈ e.infixes, b.op ∈ ops) →
      (∀ x ∈ e.operands, ∃ f, x.Reads f) → ∃ f, e.Reads f := by
  induction n with
  | zero =>
    intro e hn hops hx
    cases e with
    | last x =>
      obtain ⟨f, hf⟩ := hx x (by simp [operands])
      exact ⟨f, .last hf⟩
    | link x b e => simp [infixes] at hn
  | succ n ih =>
    intro e hn hops hx
    rcases exists_split hc hops with ⟨x, rfl⟩ | ⟨l, b, r, rfl, hsplit⟩
    · obtain ⟨f, hf⟩ := hx x (by simp [operands])
      exact ⟨f, .last hf⟩
    · simp only [infixes_join, List.length_append, List.length_cons] at hn
      obtain ⟨f, hf⟩ := ih l (by omega) (fun c h => hops c (by simp [infixes_join, h]))
        (fun x h => hx x (by simp [operands_join, h]))
      obtain ⟨g, hg⟩ := ih r (by omega) (fun c h => hops c (by simp [infixes_join, h]))
        (fun x h => hx x (by simp [operands_join, h]))
      exact ⟨_, .split hsplit hf hg⟩

mutual

theorem Operand.exists_reads {ops : Set Operator} (hc : Coherent ops) :
    ∀ x : Operand, Within ops x.tokens → ∃ f, x.Reads f
  | .name t, _ => ⟨_, .name t⟩
  | .prefixed u x, h => by
    obtain ⟨f, hf⟩ := x.exists_reads hc (h.mono fun t ht => by simp [Operand.tokens, ht])
    exact ⟨_, .prefixed u hf⟩
  | .group o e c, h => by
    have he : Within ops e.tokens := h.mono fun t ht => by simp [Operand.tokens, ht]
    obtain ⟨f, hf⟩ := Chain.exists_reads_of_operands hc _ e (Nat.le_refl _) he.infixes
      (e.exists_reads_operands hc he)
    exact ⟨f, .group o c hf⟩

theorem Chain.exists_reads_operands {ops : Set Operator} (hc : Coherent ops) :
    ∀ e : Chain, Within ops e.tokens → ∀ x ∈ e.operands, ∃ f, x.Reads f
  | .last y, h => by
    intro x hx
    rw [List.mem_singleton.mp hx]
    exact y.exists_reads hc h
  | .link y b e, h => by
    intro x hx
    rcases List.mem_cons.mp hx with hxy | hx
    · rw [hxy]
      exact y.exists_reads hc (h.mono fun t ht => by simp [Chain.tokens, ht])
    · exact e.exists_reads_operands hc (h.mono fun t ht => by simp [Chain.tokens, ht]) x hx

end

/-- **Under coherent operators every chain has a reading.** -/
theorem Chain.exists_reads {ops : Set Operator} (hc : Coherent ops) {e : Chain}
    (h : Within ops e.tokens) : ∃ f, e.Reads f :=
  exists_reads_of_operands hc _ e (Nat.le_refl _) h.infixes (e.exists_reads_operands hc h)

end Propositional
