import Propositional.Proofs.YardReading

/-!
# The output keeps the order of the source

However operators bind, and to whichever sides they group, the yard loses nothing and moves no
operand: what it puts out builds a formula, and this formula, read from left to right without
parentheses, is the source.

* `Formula.signs`, `signs` — the names and connectives of a formula and of some tokens, in order.
* `Waits` — the operators on the stack fit the formulas that the output has built.
* `Yard.Stage` — the state after some signs; `Yard.Stage.step` is preserved by every token.
* `Yard.Keeps` — the tokens that were read are in the output or on the stack.
* `ofTokens_keeps_order` — what this says of the whole output.
-/

namespace Propositional

/-! ## Signs -/

/-- What is seen of an expression without its parentheses. -/
inductive Sign where
  | name (name : String)
  | connective (k : Connective)
  deriving DecidableEq, Repr

/-- The names and connectives of a formula: a prefix connective comes before its operand, a binary
one between its operands. -/
def Formula.signs : Formula → List Sign
  | var name => [.name name]
  | unary k f => .connective k :: f.signs
  | binary k l r => l.signs ++ .connective k :: r.signs
  | foreign _ => []

def Token.sign? (t : Token) : Option Sign :=
  match t.role with
  | .identifier => some (.name t.value)
  | .operator op => some (.connective op.kind)
  | _ => none

/-- The names and connectives of some tokens, as they stand. -/
def signs (tokens : List Token) : List Sign := tokens.filterMap Token.sign?

theorem signs_append (tokens more : List Token) : signs (tokens ++ more) = signs tokens ++ signs more :=
  List.filterMap_append

theorem signs_of_sign? {t : Token} {s : Sign} (h : t.sign? = some s) : signs [t] = [s] := by
  simp [signs, h]

theorem signs_of_sign?_eq_none {t : Token} (h : t.sign? = none) : signs [t] = [] := by
  simp [signs, h]

theorem NameToken.sign? (t : NameToken) : t.val.sign? = some (.name t.val.value) := by
  simp [Token.sign?, t.property]

theorem OperatorToken.sign? {n : Nat} (u : OperatorToken n) :
    u.token.sign? = some (.connective u.op.kind) := by
  simp [Token.sign?, u.role_eq]

/-! ## The stack and the formulas -/

/-- The stack fits the formulas that are built while an operand has to come next: every binary
operator on it has a formula as its left operand. The signs are what was read so far. -/
inductive Waits : List Pending → List Formula → List Sign → Prop where
  | nothing : Waits [] [] []
  | group (o : Token) {rest : List Pending} {fs : List Formula} {read : List Sign}
    (h : Waits rest fs read) : Waits (.group o :: rest) fs read
  | prefixed (u : PrefixToken) {rest : List Pending} {fs : List Formula} {read : List Sign}
    (h : Waits rest fs read) :
    Waits (.operator u.op u.token :: rest) fs (read ++ [.connective u.op.kind])
  | infixed (b : InfixToken) (l : Formula) {rest : List Pending} {fs : List Formula}
    {read : List Sign} (h : Waits rest fs read) :
    Waits (.operator b.op b.token :: rest) (l :: fs) (read ++ l.signs ++ [.connective b.op.kind])

/-- Operators that leave the stack join the formulas that are built. The signs stay in order,
whichever operators these are and however many. By induction on the operators, the top first. -/
theorem Waits.release {rest : List Pending} : ∀ {held : List (Operator × Token)}
    {fs : List Formula} {f : Formula} {read : List Sign} {tokens : List Token},
    Waits (operators held ++ rest) fs read →
    tokens.foldlM Formula.build [] = .ok (f :: fs) →
      ∃ f' fs' read', Waits rest fs' read' ∧
        (tokens ++ held.map Prod.snd).foldlM Formula.build [] = .ok (f' :: fs') ∧
        read' ++ f'.signs = read ++ f.signs
  | [], fs, f, read, tokens, hw, hb => ⟨f, fs, read, hw, by simpa using hb, rfl⟩
  | (op, t) :: held, fs, f, read, tokens, hw, hb => by
    rw [operators_cons, List.cons_append] at hw
    cases hw with
    | prefixed u hw =>
      have hb' := (foldlM_build_snoc hb).trans (build_prefixed u f fs)
      obtain ⟨f', fs', read', hrest, hbuilt, hread⟩ := hw.release hb'
      refine ⟨f', fs', read', hrest, by simpa using hbuilt, ?_⟩
      rw [hread, Formula.signs]
      simp
    | infixed b l hw =>
      have hb' := (foldlM_build_snoc hb).trans (build_infixed b l f _)
      obtain ⟨f', fs', read', hrest, hbuilt, hread⟩ := hw.release hb'
      refine ⟨f', fs', read', hrest, by simpa using hbuilt, ?_⟩
      rw [hread, Formula.signs]
      simp

namespace Yard

/-- The state after some signs: while an operand has to come next they are on the stack with the
formulas, and otherwise they end with the formula that was built last. -/
inductive Stage (y : Yard) : List Sign → Prop where
  | expecting {fs : List Formula} {read : List Sign} (he : y.expectsOperand = true)
    (hb : y.emitted.reverse.foldlM Formula.build [] = .ok fs) (hw : Waits y.pending fs read) :
    Stage y read
  | complete {f : Formula} {fs : List Formula} {read : List Sign} (he : y.expectsOperand = false)
    (hb : y.emitted.reverse.foldlM Formula.build [] = .ok (f :: fs)) (hw : Waits y.pending fs read) :
    Stage y (read ++ f.signs)

theorem Stage.start : start.Stage [] := .expecting rfl rfl .nothing

theorem Stage.of_expecting {y : Yard} {read : List Sign} (h : y.Stage read)
    (he : y.expectsOperand = true) : ∃ fs, y.emitted.reverse.foldlM Formula.build [] = .ok fs ∧
      Waits y.pending fs read := by
  cases h with
  | expecting _ hb hw => exact ⟨_, hb, hw⟩
  | complete he' => rw [he] at he'; cases he'

theorem Stage.of_complete {y : Yard} {read : List Sign} (h : y.Stage read)
    (he : y.expectsOperand = false) : ∃ f fs before,
      y.emitted.reverse.foldlM Formula.build [] = .ok (f :: fs) ∧ Waits y.pending fs before ∧
        read = before ++ f.signs := by
  cases h with
  | expecting he' => rw [he] at he'; cases he'
  | complete _ hb hw => exact ⟨_, _, _, hb, hw, rfl⟩

/-- What leaves the stack of a state without a wanted operand. -/
theorem Stage.release {y : Yard} {read : List Sign} (h : y.Stage read)
    (he : y.expectsOperand = false) {held : List (Operator × Token)} {rest : List Pending}
    (hp : y.pending = operators held ++ rest) : ∃ f fs before,
      (y.emitted.reverse ++ held.map Prod.snd).foldlM Formula.build [] = .ok (f :: fs) ∧
        Waits rest fs before ∧ read = before ++ f.signs := by
  obtain ⟨f, fs, before, hb, hw, rfl⟩ := h.of_complete he
  rw [hp] at hw
  obtain ⟨f', fs', before', hw', hb', hread⟩ := hw.release hb
  exact ⟨f', fs', before', hb', hw', hread.symm⟩

/-- **Every token that is taken keeps the signs in order.** -/
theorem Stage.step {y y' : Yard} {t : Token} {read : List Sign} (h : y.Stage read)
    (ht : Steps y t y') : y'.Stage (read ++ signs [t]) := by
  cases ht with
  | name t he =>
    obtain ⟨fs, hb, hw⟩ := h.of_expecting he
    rw [signs_of_sign? t.sign?]
    have hb' := (foldlM_build_snoc hb).trans (build_name t fs)
    rw [← List.reverse_cons] at hb'
    exact .complete (f := .var t.val.value) rfl hb' hw
  | opening t he =>
    obtain ⟨fs, hb, hw⟩ := h.of_expecting he
    rw [signs_of_sign?_eq_none (by simp [Token.sign?, t.property]), List.append_nil]
    exact .expecting he hb (.group t.val hw)
  | prefixed u he =>
    obtain ⟨fs, hb, hw⟩ := h.of_expecting he
    rw [signs_of_sign? u.sign?]
    exact .expecting he hb (.prefixed u hw)
  | infixed b he left emitted hr =>
    obtain ⟨held, hp, rfl⟩ := exists_of_release hr
    obtain ⟨f, fs, before, hb, hw, rfl⟩ := h.release he hp
    rw [signs_of_sign? b.sign?]
    refine .expecting rfl ?_ (.infixed b f hw)
    simpa using hb
  | closing c he held o rest hp =>
    obtain ⟨f, fs, before, hb, hw, rfl⟩ := h.release he hp
    rw [signs_of_sign?_eq_none (by simp [Token.sign?, c.property]), List.append_nil]
    cases hw with
    | group _ hw => exact .complete rfl (by simpa using hb) hw

theorem stage_of_advance {y : Yard} {tokens : List Token} (h : start.advance tokens = .ok y) :
    y.Stage (signs tokens) := by
  have hstart : start.Stage (signs []) := .start
  refine advance_induction (motive := fun y read => y.Stage (signs read)) ?_ hstart h
  intro y y' t read hy ht
  rw [signs_append]
  exact hy.step ht

/-- What has been put out when the end comes builds a formula with the signs that were read. -/
theorem exists_formula {y : Yard} {tokens : List Token} {place : Int} {p : Polish}
    (hadvance : start.advance tokens = .ok y) (hfinish : y.finish place = .ok p) :
    ∃ f, Formula.ofPolish p.tokens = .ok f ∧ f.signs = signs tokens := by
  obtain ⟨he, held, hp, rfl⟩ := eq_of_finish hfinish
  rw [← List.append_nil (operators held)] at hp
  obtain ⟨f, fs, before, hb, hw, hread⟩ := (stage_of_advance hadvance).release he hp
  cases hw
  refine ⟨f, ?_, hread.symm⟩
  simp only [Formula.ofPolish, hb]
  rfl

end Yard

/-! ## The tokens that were read -/

/-- The tokens of the operators on the stack. -/
def waiting (pending : List Pending) : List Token :=
  pending.filterMap fun p => match p with
    | .group _ => none
    | .operator _ t => some t

theorem waiting_operator (op : Operator) (t : Token) (rest : List Pending) :
    waiting (.operator op t :: rest) = t :: waiting rest :=
  List.filterMap_cons_some rfl

theorem waiting_operators_append (rest : List Pending) : ∀ held : List (Operator × Token),
    waiting (operators held ++ rest) = held.map Prod.snd ++ waiting rest
  | [] => rfl
  | p :: held => by
    rw [operators_cons, List.cons_append, waiting_operator, waiting_operators_append rest held]
    rfl

/-- The identifiers and operators among some tokens. -/
def signed (tokens : List Token) : List Token := tokens.filter (·.sign?.isSome)

theorem signed_append (tokens more : List Token) : signed (tokens ++ more) = signed tokens ++ signed more :=
  List.filter_append ..

/-- The identifiers and operators that were read are in the output or on the stack, each of them
once, and the identifiers are in the output in the order in which they were read. -/
structure Keeps (emitted : List Token) (pending : List Pending) (read : List Token) : Prop where
  count : ∀ t, emitted.count t + (waiting pending).count t = (signed read).count t
  identifiers : emitted.reverse.filter (·.role = .identifier) = read.filter (·.role = .identifier)
  only_operators : ∀ t ∈ waiting pending, ∃ op, t.role = .operator op

namespace Keeps

variable {emitted : List Token} {pending : List Pending} {read : List Token}

theorem nothing : Keeps [] [] [] := ⟨fun _ => rfl, rfl, List.forall_mem_nil _⟩

theorem emit_name (h : Keeps emitted pending read) (t : NameToken) :
    Keeps (t.val :: emitted) pending (read ++ [t.val]) where
  count u := by
    have hu := h.count u
    have ht : signed [t.val] = [t.val] := by simp [signed, t.sign?]
    rw [signed_append, ht, List.count_append, List.count_cons, List.count_singleton]
    omega
  identifiers := by
    rw [List.reverse_cons, List.filter_append, List.filter_append, h.identifiers]
  only_operators := h.only_operators

theorem push_operator (h : Keeps emitted pending read) {n : Nat} (u : OperatorToken n) :
    Keeps emitted (.operator u.op u.token :: pending) (read ++ [u.token]) where
  count t := by
    have ht := h.count t
    have hu : signed [u.token] = [u.token] := by simp [signed, u.sign?]
    rw [signed_append, hu, List.count_append, waiting_operator, List.count_cons,
      List.count_singleton]
    omega
  identifiers := by
    rw [List.filter_append, h.identifiers]
    simp [u.role_eq]
  only_operators t ht := by
    rw [waiting_operator] at ht
    rcases List.mem_cons.mp ht with rfl | ht
    · exact ⟨u.op, u.role_eq⟩
    · exact h.only_operators t ht

/-- A parenthesis is read and leaves no token behind. -/
theorem read_parenthesis (h : Keeps emitted pending read) {t : Token}
    (ht : t.role = .opening ∨ t.role = .closing) : Keeps emitted pending (read ++ [t]) where
  count u := by
    have hsign : t.sign? = none := by rcases ht with ht | ht <;> simp [Token.sign?, ht]
    have hsigned : signed [t] = [] := by simp [signed, hsign]
    rw [signed_append, hsigned, List.append_nil]
    exact h.count u
  identifiers := by
    have hname : t.role ≠ .identifier := by rcases ht with ht | ht <;> simp [ht]
    rw [List.filter_append, h.identifiers]
    simp [hname]
  only_operators := h.only_operators

theorem group_iff (o : Token) :
    Keeps emitted (.group o :: pending) read ↔ Keeps emitted pending read := by
  constructor
  · exact fun h => ⟨h.count, h.identifiers, h.only_operators⟩
  · exact fun h => ⟨h.count, h.identifiers, h.only_operators⟩

/-- Operators that leave the stack go to the output. -/
theorem release {held : List (Operator × Token)} {rest : List Pending}
    (h : Keeps emitted (operators held ++ rest) read) :
    Keeps ((held.map Prod.snd).reverse ++ emitted) rest read := by
  have hwaiting := waiting_operators_append rest held
  refine ⟨fun t => ?_, ?_, fun t ht => h.only_operators t (by simp [hwaiting, ht])⟩
  · have ht := h.count t
    rw [hwaiting, List.count_append] at ht
    rw [List.count_append, List.count_reverse]
    omega
  · have hnone : (held.map Prod.snd).filter (·.role = .identifier) = [] := by
      refine List.filter_eq_nil_iff.mpr fun t ht => ?_
      obtain ⟨op, hop⟩ := h.only_operators t (by rw [hwaiting]; exact List.mem_append_left _ ht)
      simp [hop]
    rw [List.reverse_append, List.reverse_reverse, List.filter_append, hnone, List.append_nil]
    exact h.identifiers

/-- **Every token that is taken is kept.** -/
theorem step {y y' : Yard} {t : Token} (h : Keeps y.emitted y.pending read)
    (ht : Yard.Steps y t y') : Keeps y'.emitted y'.pending (read ++ [t]) := by
  cases ht with
  | name t he => exact h.emit_name t
  | opening t he => exact (group_iff t.val).mpr (h.read_parenthesis (.inl t.property))
  | prefixed u he => exact h.push_operator u
  | infixed b he left emitted hr =>
    obtain ⟨held, hp, rfl⟩ := Yard.exists_of_release hr
    exact (hp ▸ h).release.push_operator b
  | closing c he held o rest hp =>
    exact (group_iff o).mp ((hp ▸ h).release.read_parenthesis (.inr c.property))

theorem of_advance {y : Yard} {tokens : List Token} (h : Yard.start.advance tokens = .ok y) :
    Keeps y.emitted y.pending tokens := by
  have hstart : Keeps Yard.start.emitted Yard.start.pending [] := nothing
  exact Yard.advance_induction (motive := fun y read => Keeps y.emitted y.pending read)
    (fun hy ht => hy.step ht) hstart h

end Keeps

/-! ## The whole output -/

/-- Every operator that is taken has a meaning, so operators are kept without exception. -/
theorem signed_of_advance {y : Yard} {tokens : List Token} (h : Yard.start.advance tokens = .ok y) :
    signed tokens = tokens.filter fun t => t.role = .identifier || t.isOperator := by
  have hparts : ∀ t ∈ tokens, t.IsPart := by
    have hstart : ∀ t ∈ ([] : List Token), t.IsPart := List.forall_mem_nil _
    refine Yard.advance_induction (motive := fun _ read => ∀ t ∈ read, t.IsPart) ?_ hstart h
    intro y y' t read hread ht u hu
    rcases List.mem_append.mp hu with hu | hu
    · exact hread u hu
    · rw [List.mem_singleton.mp hu]
      exact ht.isPart
  refine List.filter_congr fun t ht => ?_
  rcases hparts t ht with hr | hr | hr | ⟨op, hr⟩
  · simp [Token.sign?, hr]
  · simp [Token.sign?, Token.isOperator, hr]
  · simp [Token.sign?, Token.isOperator, hr]
  · simp [Token.sign?, Token.isOperator, hr]

/-- **The output is well formed and loses nothing**, whatever the precedences, and to whichever
sides the operators group. It holds the identifiers and operators before the end, each of them once,
the identifiers in order, and no parenthesis. It builds a formula, which is the source without its
parentheses when it is read from left to right. -/
theorem ofTokens_keeps_order {tokens : List Token} {p : Polish}
    (h : Polish.ofTokens tokens = .ok p) :
    p.tokens.Perm ((beforeEnd tokens).filter fun t => t.role = .identifier || t.isOperator) ∧
    p.tokens.filter (·.role = .identifier) = (beforeEnd tokens).filter (·.role = .identifier) ∧
    (∀ t ∈ p.tokens, t.role ≠ .opening ∧ t.role ≠ .closing) ∧
    ∃ f, Formula.ofPolish p.tokens = .ok f ∧ f.signs = signs (beforeEnd tokens) := by
  obtain ⟨y, place, hadvance, hfinish⟩ := Yard.exists_advance_of_run h
  obtain ⟨he, held, hp, rfl⟩ := Yard.eq_of_finish hfinish
  -- at the end the whole stack leaves for the output
  rw [← List.append_nil (operators held)] at hp
  have hkeeps := (hp ▸ Keeps.of_advance hadvance).release
  have houtput : ((held.map Prod.snd).reverse ++ y.emitted).reverse =
      y.emitted.reverse ++ held.map Prod.snd := by
    rw [List.reverse_append, List.reverse_reverse]
  have hperm : (y.emitted.reverse ++ held.map Prod.snd).Perm (signed (beforeEnd tokens)) := by
    rw [← houtput]
    refine List.perm_iff_count.mpr fun t => ?_
    rw [List.count_reverse]
    exact hkeeps.count t
  refine ⟨signed_of_advance hadvance ▸ hperm, houtput ▸ hkeeps.identifiers, fun t ht => ?_, ?_⟩
  · have hsign : t.sign?.isSome = true := (List.mem_filter.mp (hperm.mem_iff.mp ht)).2
    constructor
    · intro hr
      simp [Token.sign?, hr] at hsign
    · intro hr
      simp [Token.sign?, hr] at hsign
  · obtain ⟨f, fs, before, hb, hw, hread⟩ := (Yard.stage_of_advance hadvance).release he hp
    cases hw
    refine ⟨f, ?_, hread.symm⟩
    simp only [Formula.ofPolish, hb]
    rfl

/-- A prefix operator that binds more loosely than the binary ones. -/
def looseClass : TokenClass :=
  TokenClass.unboundOperator.specialise "Loose"
    { kind := some (some .not), spellings := some ["!"], precedence := some 0 }

/-- Binary operators of one precedence that group to different sides. -/
def leftClass : TokenClass :=
  TokenClass.unboundOperator.specialise "Left"
    { kind := some (some .and), spellings := some ["&"], precedence := some 1 }

def rightClass : TokenClass :=
  TokenClass.unboundOperator.specialise "Right"
    { kind := some (some .or), spellings := some ["|"], precedence := some 1,
      associativity := some .right }

/-- The tokens of `! A & (B | C) | D`. -/
def looseTokens : List Token :=
  [⟨looseClass, "!", 0, 1⟩, ⟨.variableName, "A", 2, 3⟩, ⟨leftClass, "&", 4, 5⟩,
    ⟨.openParenthesis, "(", 6, 7⟩, ⟨.variableName, "B", 7, 8⟩, ⟨rightClass, "|", 9, 10⟩,
    ⟨.variableName, "C", 11, 12⟩, ⟨.closeParenthesis, ")", 12, 13⟩, ⟨rightClass, "|", 14, 15⟩,
    ⟨.variableName, "D", 16, 17⟩, endToken 17]

theorem ofTokens_keeps_order_loose : ∃ p, Polish.ofTokens looseTokens = .ok p ∧
    p.tokens.map Token.value = ["A", "B", "C", "|", "D", "|", "&", "!"] ∧
    ∃ f, Formula.ofPolish p.tokens = .ok f ∧
      f.signs = [.connective .not, .name "A", .connective .and, .name "B", .connective .or,
        .name "C", .connective .or, .name "D"] := by
  have h : Polish.ofTokens looseTokens = .ok _ := rfl
  have hsigns : signs (beforeEnd looseTokens) = [.connective .not, .name "A", .connective .and,
      .name "B", .connective .or, .name "C", .connective .or, .name "D"] := by decide
  obtain ⟨f, hf, hread⟩ := (ofTokens_keeps_order h).2.2.2
  exact ⟨_, h, by decide, f, hf, hread.trans hsigns⟩

end Propositional
