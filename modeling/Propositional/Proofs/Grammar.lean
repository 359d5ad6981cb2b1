import Propositional.Token.Basic

/-!
# The grammar of expressions

An expression is a chain of operands with a binary operator between each two. An operand is a name,
a prefix operator in front of an operand, or a chain in parentheses. Precedence plays no part here.

* `Operand`, `Chain` — concrete syntax, written down by `tokens`.
* `IsExpression` — some chain is written as the given tokens.
* `Outline` — all that decides whether reading can go on: whether an operand has to come next, and
  how many groups are open. `Outline.accepts_iff` — what an outline accepts from the start are the
  expressions.
-/

namespace Propositional

/-- The tokens before the first one that marks the end. -/
def beforeEnd (tokens : List Token) : List Token := tokens.takeWhile (·.role ≠ .finish)

/-! ## Concrete syntax -/

theorem Connective.arity_eq_two {k : Connective} (h : k.arity ≠ 1) : k.arity = 2 := by
  cases k <;> simp_all [Connective.arity]

abbrev NameToken := { t : Token // t.role = .identifier }
abbrev OpeningToken := { t : Token // t.role = .opening }
abbrev ClosingToken := { t : Token // t.role = .closing }

/-- An operator token whose operator takes the given number of operands. -/
structure OperatorToken (arity : Nat) where
  token : Token
  op : Operator
  role_eq : token.role = .operator op
  arity_eq : op.kind.arity = arity

abbrev PrefixToken := OperatorToken 1
abbrev InfixToken := OperatorToken 2

mutual

inductive Operand where
  | name (t : NameToken)
  | prefixed (u : PrefixToken) (x : Operand)
  | group (opening : OpeningToken) (e : Chain) (closing : ClosingToken)

inductive Chain where
  | last (x : Operand)
  | link (x : Operand) (b : InfixToken) (e : Chain)

end

mutual

/-- The tokens that an operand is written as. -/
def Operand.tokens : Operand → List Token
  | .name t => [t.val]
  | .prefixed u x => u.token :: x.tokens
  | .group o e c => o.val :: (e.tokens ++ [c.val])

/-- The tokens that a chain is written as. -/
def Chain.tokens : Chain → List Token
  | .last x => x.tokens
  | .link x b e => x.tokens ++ b.token :: e.tokens

end

/-- The tokens form an expression. -/
def IsExpression (tokens : List Token) : Prop := ∃ e : Chain, e.tokens = tokens

theorem Operand.tokens_ne_nil (x : Operand) : x.tokens ≠ [] := by
  cases x <;> simp [Operand.tokens]

/-! ## What reading depends on -/

/-- What has been read so far, as far as it decides what may follow. -/
structure Outline where
  expectsOperand : Bool
  depth : Nat
  deriving DecidableEq, Repr

namespace Outline

def start : Outline := ⟨true, 0⟩

/-- Everything that was begun is complete. -/
def complete : Outline := ⟨false, 0⟩

/-- What one token does to an outline, if it may follow. -/
def step (s : Outline) (t : Token) : Option Outline :=
  match t.role with
  | .identifier => if s.expectsOperand then some ⟨false, s.depth⟩ else none
  | .opening => if s.expectsOperand then some ⟨true, s.depth + 1⟩ else none
  | .closing => if s.expectsOperand ∨ s.depth = 0 then none else some ⟨false, s.depth - 1⟩
  | .operator op =>
    if op.kind.arity = 1 then if s.expectsOperand then some s else none
    else if s.expectsOperand then none else some ⟨true, s.depth⟩
  | .blank | .unbound | .finish | .other => none

/-- The tokens may follow one after the other, and complete what was begun. -/
def Accepts (s : Outline) (tokens : List Token) : Prop := tokens.foldlM step s = some complete

theorem accepts_nil {s : Outline} : s.Accepts [] ↔ s = complete := by
  simp [Accepts, List.foldlM_nil]

theorem accepts_cons {s : Outline} {t : Token} {ts : List Token} :
    s.Accepts (t :: ts) ↔ ∃ s', s.step t = some s' ∧ s'.Accepts ts := by
  simp [Accepts, List.foldlM_cons, Option.bind_eq_some_iff]

theorem accepts_append {s : Outline} {tokens more : List Token} :
    s.Accepts (tokens ++ more) ↔ ∃ s', tokens.foldlM step s = some s' ∧ s'.Accepts more := by
  simp only [Accepts, List.foldlM_append]
  exact Option.bind_eq_some_iff

/-! ### One token that may follow -/

theorem step_name (d : Nat) (t : NameToken) : (⟨true, d⟩ : Outline).step t.val = some ⟨false, d⟩ := by
  simp [step, t.property]

theorem step_opening (d : Nat) (t : OpeningToken) :
    (⟨true, d⟩ : Outline).step t.val = some ⟨true, d + 1⟩ := by
  simp [step, t.property]

theorem step_closing (d : Nat) (t : ClosingToken) :
    (⟨false, d + 1⟩ : Outline).step t.val = some ⟨false, d⟩ := by
  simp [step, t.property]

theorem step_prefix (d : Nat) (u : PrefixToken) :
    (⟨true, d⟩ : Outline).step u.token = some ⟨true, d⟩ := by
  simp [step, u.role_eq, u.arity_eq]

theorem step_infix (d : Nat) (b : InfixToken) :
    (⟨false, d⟩ : Outline).step b.token = some ⟨true, d⟩ := by
  simp [step, b.role_eq, b.arity_eq]

/-! ### Every token that may follow -/

/-- Where an operand has to come, a name, a group or a prefix operator begins it. -/
theorem step_expecting {d : Nat} {t : Token} {s : Outline}
    (h : (⟨true, d⟩ : Outline).step t = some s) :
    (∃ n : NameToken, n.val = t ∧ s = ⟨false, d⟩) ∨
    (∃ o : OpeningToken, o.val = t ∧ s = ⟨true, d + 1⟩) ∨
    (∃ u : PrefixToken, u.token = t ∧ s = ⟨true, d⟩) := by
  unfold step at h
  split at h
  · rename_i hr
    exact .inl ⟨⟨t, hr⟩, rfl, by simpa using h.symm⟩
  · rename_i hr
    exact .inr (.inl ⟨⟨t, hr⟩, rfl, by simpa using h.symm⟩)
  · simp at h
  · rename_i op hr
    split at h
    · rename_i ha
      exact .inr (.inr ⟨⟨t, op, hr, ha⟩, rfl, by simpa using h.symm⟩)
    · simp at h
  all_goals cases h

/-- After an operand, a binary operator goes on or the innermost group is closed. -/
theorem step_not_expecting {d : Nat} {t : Token} {s : Outline}
    (h : (⟨false, d⟩ : Outline).step t = some s) :
    (∃ b : InfixToken, b.token = t ∧ s = ⟨true, d⟩) ∨
    (∃ c : ClosingToken, c.val = t ∧ d ≠ 0 ∧ s = ⟨false, d - 1⟩) := by
  unfold step at h
  split at h
  · simp at h
  · simp at h
  · rename_i hr
    split at h
    · cases h
    · rename_i hd
      exact .inr ⟨⟨t, hr⟩, rfl, by simpa using hd, by simpa using h.symm⟩
  · rename_i op hr
    split at h
    · simp at h
    · rename_i ha
      exact .inl ⟨⟨t, op, hr, Connective.arity_eq_two ha⟩, rfl, by simpa using h.symm⟩
  all_goals cases h

end Outline

/-! ## Expressions are what the outline accepts -/

mutual

/-- Over an operand the outline only learns that no operand has to come next. -/
theorem Operand.foldlM_step (d : Nat) :
    ∀ x : Operand, x.tokens.foldlM Outline.step ⟨true, d⟩ = some ⟨false, d⟩
  | .name t => by simp [Operand.tokens, Outline.step_name]
  | .prefixed u x => by
    simp only [Operand.tokens, List.foldlM_cons, Outline.step_prefix]
    exact x.foldlM_step d
  | .group o e c => by
    simp only [Operand.tokens, List.foldlM_cons, List.foldlM_append, Outline.step_opening,
      Option.bind_eq_bind, Option.bind_some, e.foldlM_step (d + 1), Outline.step_closing,
      List.foldlM_nil]
    rfl

theorem Chain.foldlM_step (d : Nat) :
    ∀ e : Chain, e.tokens.foldlM Outline.step ⟨true, d⟩ = some ⟨false, d⟩
  | .last x => by simpa [Chain.tokens] using x.foldlM_step d
  | .link x b e => by
    simp only [Chain.tokens, List.foldlM_append, List.foldlM_cons, x.foldlM_step d,
      Option.bind_eq_bind, Option.bind_some, Outline.step_infix]
    exact e.foldlM_step d

end

/-- What is accepted where an operand has to come begins with an operand, and with a chain that
goes up to the end of its group. By induction on the number of tokens. -/
theorem Outline.exists_syntax (n : Nat) : ∀ (d : Nat) (ts : List Token), ts.length ≤ n →
    (⟨true, d⟩ : Outline).Accepts ts →
      (∃ (x : Operand) (rest : List Token),
        ts = x.tokens ++ rest ∧ (⟨false, d⟩ : Outline).Accepts rest) ∧
      ∃ (e : Chain) (rest : List Token), ts = e.tokens ++ rest ∧
        (⟨false, d⟩ : Outline).Accepts rest ∧
          ∀ c ∈ rest.head?, c.role = .closing := by
  induction n with
  | zero =>
    intro d ts hn h
    obtain rfl : ts = [] := List.eq_nil_of_length_eq_zero (by omega)
    simp [Outline.accepts_nil, Outline.complete] at h
  | succ n ih =>
    intro d ts hn h
    cases ts with
    | nil => simp [Outline.accepts_nil, Outline.complete] at h
    | cons t ts =>
      simp only [List.length_cons, Nat.add_le_add_iff_right] at hn
      have hoperand : ∃ (x : Operand) (rest : List Token),
          t :: ts = x.tokens ++ rest ∧ (⟨false, d⟩ : Outline).Accepts rest := by
        obtain ⟨s, hs, hts⟩ := Outline.accepts_cons.mp h
        rcases Outline.step_expecting hs with ⟨m, rfl, rfl⟩ | ⟨o, rfl, rfl⟩ | ⟨u, rfl, rfl⟩
        · exact ⟨.name m, ts, rfl, hts⟩
        · -- the chain inside the group ends before a token that closes it
          obtain ⟨-, e, rest, rfl, hrest, hc⟩ := ih (d + 1) ts hn hts
          cases rest with
          | nil => simp [Outline.accepts_nil, Outline.complete] at hrest
          | cons c rest =>
            have hrole : c.role = .closing := hc c rfl
            obtain ⟨s, hs, hrest⟩ := Outline.accepts_cons.mp hrest
            have hs' := Outline.step_closing d ⟨c, hrole⟩
            simp only [hs, Option.some.injEq] at hs'
            exact ⟨.group o e ⟨c, hrole⟩, rest, by simp [Operand.tokens], hs' ▸ hrest⟩
        · obtain ⟨⟨x, rest, rfl, hrest⟩, -⟩ := ih d ts hn hts
          exact ⟨.prefixed u x, rest, rfl, hrest⟩
      refine ⟨hoperand, ?_⟩
      obtain ⟨x, rest, hx, hrest⟩ := hoperand
      cases rest with
      | nil => exact ⟨.last x, [], hx, hrest, by simp⟩
      | cons c rest =>
        obtain ⟨s, hs, hrest'⟩ := Outline.accepts_cons.mp hrest
        rcases Outline.step_not_expecting hs with ⟨b, rfl, rfl⟩ | ⟨c, rfl, -, rfl⟩
        · have hlen : rest.length ≤ n := by
            have := congrArg List.length hx
            have hpos := List.length_pos_iff.mpr x.tokens_ne_nil
            simp only [List.length_cons, List.length_append] at this
            omega
          obtain ⟨-, e, rest', rfl, hrest', hc⟩ := ih d rest hlen hrest'
          exact ⟨.link x b e, rest', by simp [Chain.tokens, hx], hrest', hc⟩
        · exact ⟨.last x, c.val :: rest, hx, hrest, by simpa using c.property⟩

/-- **From the start, the outline accepts the expressions and nothing else.** -/
theorem Outline.accepts_iff {tokens : List Token} :
    Outline.start.Accepts tokens ↔ IsExpression tokens := by
  constructor
  · intro h
    obtain ⟨-, e, rest, rfl, hrest, hc⟩ := Outline.exists_syntax _ 0 tokens (Nat.le_refl _) h
    cases rest with
    | nil => exact ⟨e, by simp⟩
    | cons c rest =>
      obtain ⟨s, hs, -⟩ := Outline.accepts_cons.mp hrest
      simp [Outline.step, hc c rfl] at hs
  · rintro ⟨e, rfl⟩
    exact e.foldlM_step 0

end Propositional
