import Propositional.Proofs.Acceptance
import Propositional.Proofs.Precedence

/-!
# The shunting yard builds the reading

Reading an operand or a chain leaves two things behind: tokens that are in the output, and operators
on top of the stack that still wait. Together, output first, they are reverse Polish notation of the
formula that was read.

* `Builds` — tokens in reverse Polish notation of a formula. `build_name` and its siblings say what
  one more token does.
* `Operand.Yields`, `Chain.Yields` — what the yard leaves behind. A chain asks that none of its
  operators completes the one on top of the stack before it.
* `Chain.Reads.yields` — the formula that is left behind is the reading.
* `ofPolish_eq_reading` — from accepted tokens the reading is built, and there is no other.
-/

namespace Propositional

/-! ## Reverse Polish notation -/

/-- The tokens put the formula on top of any stack. -/
def Builds (tokens : List Token) (f : Formula) : Prop :=
  ∀ stack, tokens.foldlM Formula.build stack = .ok (f :: stack)

theorem foldlM_build_snoc {tokens : List Token} {before stack : List Formula} {t : Token}
    (h : tokens.foldlM Formula.build before = .ok stack) :
    (tokens ++ [t]).foldlM Formula.build before = Formula.build stack t := by
  rw [List.foldlM_append, h]
  show [t].foldlM Formula.build stack = _
  rw [List.foldlM_cons]
  exact bind_pure _

theorem build_name (t : NameToken) (stack : List Formula) :
    Formula.build stack t.val = .ok (.var t.val.value :: stack) := by
  simp [Formula.build, t.property]

theorem build_prefixed (u : PrefixToken) (f : Formula) (stack : List Formula) :
    Formula.build (f :: stack) u.token = .ok (.unary u.op.kind f :: stack) := by
  simp [Formula.build, u.role_eq, u.arity_eq]

theorem build_infixed (b : InfixToken) (l r : Formula) (stack : List Formula) :
    Formula.build (r :: l :: stack) b.token = .ok (.binary b.op.kind l r :: stack) := by
  simp [Formula.build, b.role_eq, b.arity_eq]

theorem builds_name (t : NameToken) : Builds [t.val] (.var t.val.value) := by
  intro stack
  have hnone : [].foldlM Formula.build stack = .ok stack := rfl
  exact (foldlM_build_snoc hnone).trans (build_name t stack)

theorem Builds.prefixed {tokens : List Token} {f : Formula} (h : Builds tokens f)
    (u : PrefixToken) : Builds (tokens ++ [u.token]) (.unary u.op.kind f) := fun stack =>
  (foldlM_build_snoc (h stack)).trans (build_prefixed u f stack)

theorem Builds.infixed {ls rs : List Token} {f g : Formula} (hl : Builds ls f) (hr : Builds rs g)
    (b : InfixToken) : Builds (ls ++ rs ++ [b.token]) (.binary b.op.kind f g) := by
  intro stack
  have hboth : (ls ++ rs).foldlM Formula.build stack = .ok (g :: f :: stack) := by
    rw [List.foldlM_append, hl stack]
    exact hr (f :: stack)
  exact (foldlM_build_snoc hboth).trans (build_infixed b f g stack)

theorem Builds.ofPolish {tokens : List Token} {f : Formula} (h : Builds tokens f) :
    Formula.ofPolish tokens = .ok f := by
  simp only [Formula.ofPolish, h []]
  rfl

namespace Yard

/-- What a run leaves behind: tokens in the output, and operators on top of the stack. -/
structure Leaves (y y' : Yard) (new : List Token) (held : List (Operator × Token)) : Prop where
  emitted : y'.emitted = new.reverse ++ y.emitted
  pending : y'.pending = operators held ++ y.pending
  complete : y'.expectsOperand = false

end Yard

/-! ## Operands and chains -/

/-- The yard leaves reverse Polish notation of the formula behind, with prefix operators waiting. -/
def Operand.Yields (ops : Set Operator) (x : Operand) (f : Formula) : Prop :=
  ∃ (new : List Token) (held : List (Operator × Token)),
    (∀ p ∈ held, p.1 ∈ ops ∧ p.1.kind.arity = 1) ∧
    Builds (new ++ held.map Prod.snd) f ∧
    ∀ y : Yard, y.expectsOperand = true →
      ∃ y', y.advance x.tokens = .ok y' ∧ y.Leaves y' new held

/-- The yard leaves reverse Polish notation of the formula behind, with prefix operators and
operators of the chain waiting. No operator of the chain may complete the one under them. -/
def Chain.Yields (ops : Set Operator) (e : Chain) (f : Formula) : Prop :=
  ∃ (new : List Token) (held : List (Operator × Token)),
    (∀ p ∈ held, (p.1 ∈ ops ∧ p.1.kind.arity = 1) ∨ ∃ b ∈ e.infixes, p.1 = b.op) ∧
    Builds (new ++ held.map Prod.snd) f ∧
    ∀ y : Yard, y.expectsOperand = true → (∀ b ∈ e.infixes, Yard.Rests b.op y.pending) →
      ∃ y', y.advance e.tokens = .ok y' ∧ y.Leaves y' new held

variable {ops : Set Operator}

theorem Operand.Yields.name (t : NameToken) :
    (Operand.name t).Yields ops (.var t.val.value) := by
  refine ⟨[t.val], [], by simp, by simpa using builds_name t, fun y hy => ?_⟩
  exact ⟨_, Yard.advance_cons (.name t hy) [], rfl, rfl, rfl⟩

theorem Operand.Yields.prefixed {x : Operand} {f : Formula} (h : x.Yields ops f) (u : PrefixToken)
    (hu : u.op ∈ ops) : (Operand.prefixed u x).Yields ops (.unary u.op.kind f) := by
  obtain ⟨new, held, hheld, hbuilds, hrun⟩ := h
  refine ⟨new, held ++ [(u.op, u.token)], ?_, ?_, fun y hy => ?_⟩
  · intro p hp
    rcases List.mem_append.mp hp with hp | hp
    · exact hheld p hp
    · rw [List.mem_singleton.mp hp]
      exact ⟨hu, u.arity_eq⟩
  · simpa using hbuilds.prefixed u
  · obtain ⟨y', hy', hl⟩ := hrun { y with pending := .operator u.op u.token :: y.pending } hy
    refine ⟨y', (Yard.advance_cons (.prefixed u hy) _).trans hy', hl.emitted, ?_, hl.complete⟩
    rw [hl.pending]
    simp

theorem Operand.Yields.group {e : Chain} {f : Formula} (h : e.Yields ops f) (o : OpeningToken)
    (c : ClosingToken) : (Operand.group o e c).Yields ops f := by
  obtain ⟨new, held, -, hbuilds, hrun⟩ := h
  refine ⟨new ++ held.map Prod.snd, [], by simp, by simpa using hbuilds, fun y hy => ?_⟩
  have hrests : ∀ b ∈ e.infixes, Yard.Rests b.op (.group o.val :: y.pending) := by
    intro b _ p hp before u heq
    simp only [List.head?_cons, Option.mem_def, Option.some.injEq] at hp
    rw [← hp] at heq
    cases heq
  obtain ⟨y', hy', hl⟩ := hrun { y with pending := .group o.val :: y.pending } hy hrests
  have hclose := Yard.Steps.closing c hl.complete held o.val y.pending hl.pending
  have hadvance := Yard.advance_snoc hy' hclose
  rw [← Yard.advance_cons (.opening o hy)] at hadvance
  exact ⟨_, hadvance, ⟨by simp [hl.emitted], rfl, rfl⟩⟩

theorem Chain.Yields.last {x : Operand} {f : Formula} (h : x.Yields ops f) :
    (Chain.last x).Yields ops f := by
  obtain ⟨new, held, hheld, hbuilds, hrun⟩ := h
  exact ⟨new, held, fun p hp => .inl (hheld p hp), hbuilds, fun y hy _ => hrun y hy⟩

/-! ### Where a chain is split -/

theorem completes_prefix (hc : Coherent ops) {u b : Operator} (hu : u ∈ ops) (hb : b ∈ ops)
    (hu1 : u.kind.arity = 1) (hb2 : b.kind.arity = 2) : Yard.completes b u = .ok true := by
  have hlt := hc.tighter u hu b hb hu1 hb2
  rcases hc.side b hb with h | h
  · simp only [Yard.completes, h, Except.ok.injEq, decide_eq_true_eq]
    omega
  · simp only [Yard.completes, h, Except.ok.injEq, decide_eq_true_eq]
    exact hlt

/-- The operator that splits a chain completes all operators before it. -/
theorem Chain.IsSplit.completes_left (hc : Coherent ops) {l r : Chain} {b o : InfixToken}
    (h : l.IsSplit b r) (hb : b.op ∈ ops) (ho : o ∈ l.infixes) :
    Yard.completes b.op o.op = .ok true := by
  have hle := h.lowest_left o ho
  rcases hc.side b.op hb with hs | hs
  · simp only [Yard.completes, hs, Except.ok.injEq, decide_eq_true_eq]
    exact hle
  · have hne := h.leftmost hs o ho
    simp only [Yard.completes, hs, Except.ok.injEq, decide_eq_true_eq]
    omega

/-- No operator behind it completes the operator that splits a chain. -/
theorem Chain.IsSplit.completes_right (hc : Coherent ops) {l r : Chain} {b o : InfixToken}
    (h : l.IsSplit b r) (hb : b.op ∈ ops) (ho : o ∈ r.infixes) (hoo : o.op ∈ ops) :
    Yard.completes o.op b.op = .ok false := by
  have hle := h.lowest_right o ho
  rcases hc.side o.op hoo with hs | hs
  · have hne : b.op.precedence ≠ o.op.precedence := by
      intro heq
      have hside := hc.level b.op hb o.op hoo b.arity_eq o.arity_eq heq
      exact h.rightmost (hside.trans hs) o ho heq
    simp only [Yard.completes, hs, Except.ok.injEq, decide_eq_false_iff_not]
    omega
  · simp only [Yard.completes, hs, Except.ok.injEq, decide_eq_false_iff_not]
    omega

/-- The part before the operator is taken off the stack when the operator comes, and the operator
stays on the stack under the part behind it. -/
theorem Chain.Yields.split (hc : Coherent ops) {l r : Chain} {b : InfixToken} {f g : Formula}
    (hsplit : l.IsSplit b r) (hops : ∀ o ∈ (l.join b r).infixes, o.op ∈ ops)
    (hl : l.Yields ops f) (hr : r.Yields ops g) :
    (l.join b r).Yields ops (.binary b.op.kind f g) := by
  obtain ⟨new, held, hheld, hbuilds, hrun⟩ := hl
  obtain ⟨new', held', hheld', hbuilds', hrun'⟩ := hr
  have hb : b.op ∈ ops := hops b (by simp [infixes_join])
  have hcomplete : ∀ p ∈ held, Yard.completes b.op p.1 = .ok true := by
    intro p hp
    rcases hheld p hp with ⟨hmem, hone⟩ | ⟨o, ho, heq⟩
    · exact completes_prefix hc hmem hb hone b.arity_eq
    · rw [heq]
      exact hsplit.completes_left hc hb ho
  refine ⟨new ++ held.map Prod.snd ++ new', held' ++ [(b.op, b.token)], ?_, ?_, ?_⟩
  · intro p hp
    rcases List.mem_append.mp hp with hp | hp
    · rcases hheld' p hp with h | ⟨o, ho, heq⟩
      · exact .inl h
      · exact .inr ⟨o, by simp [infixes_join, ho], heq⟩
    · rw [List.mem_singleton.mp hp]
      exact .inr ⟨b, by simp [infixes_join], rfl⟩
  · simpa using hbuilds.infixed hbuilds' b
  · intro y hy hrests
    obtain ⟨y₁, hy₁, hl₁⟩ := hrun y hy fun o ho => hrests o (by simp [infixes_join, ho])
    have hrelease : Yard.release b.op b.token y₁.pending y₁.emitted =
        .ok (y.pending, (held.map Prod.snd).reverse ++ y₁.emitted) := by
      rw [hl₁.pending]
      exact Yard.release_operators (hrests b (by simp [infixes_join])) held _ hcomplete
    have hstep := Yard.Steps.infixed b hl₁.complete _ _ hrelease
    have hrests' : ∀ o ∈ r.infixes,
        Yard.Rests o.op (.operator b.op b.token :: y.pending) := by
      intro o ho p hp before u heq
      simp only [List.head?_cons, Option.mem_def, Option.some.injEq] at hp
      rw [← hp] at heq
      cases heq
      exact hsplit.completes_right hc hb ho (hops o (by simp [infixes_join, ho]))
    obtain ⟨y₂, hy₂, hl₂⟩ := hrun' { y₁ with
      pending := .operator b.op b.token :: y.pending
      emitted := (held.map Prod.snd).reverse ++ y₁.emitted
      expectsOperand := true } rfl hrests'
    refine ⟨y₂, ?_, ?_, ?_, hl₂.complete⟩
    · rw [tokens_join, Yard.advance_append hy₁, Yard.advance_cons hstep, hy₂]
    · rw [hl₂.emitted, hl₁.emitted]
      simp
    · rw [hl₂.pending]
      simp

mutual

theorem Operand.Reads.yields (hc : Coherent ops) : ∀ {x : Operand} {f : Formula}, x.Reads f →
    Within ops x.tokens → x.Yields ops f
  | _, _, .name t, _ => .name t
  | _, _, .prefixed u h, hw =>
    (h.yields hc (hw.mono fun t ht => by simp [Operand.tokens, ht])).prefixed u
      (hw u.token (by simp [Operand.tokens]) u.op u.role_eq)
  | _, _, .group o c h, hw =>
    .group (h.yields hc (hw.mono fun t ht => by simp [Operand.tokens, ht])) o c

/-- **What the yard leaves behind of a chain is its reading.** -/
theorem Chain.Reads.yields (hc : Coherent ops) : ∀ {e : Chain} {f : Formula}, e.Reads f →
    Within ops e.tokens → e.Yields ops f
  | _, _, .last h, hw => .last (h.yields hc hw)
  | _, _, .split hsplit hl hr, hw =>
    .split hc hsplit hw.infixes
      (hl.yields hc (hw.mono fun t ht => by simp [Chain.tokens_join, ht]))
      (hr.yields hc (hw.mono fun t ht => by simp [Chain.tokens_join, ht]))

end

/-! ## The whole expression -/

/-- Tokens that have a reading are accepted, and the reading is built from what they are put into. -/
theorem IsReading.ofTokens (hc : Coherent ops) {tokens : List Token} {f : Formula}
    (h : IsReading (beforeEnd tokens) f) (hw : Within ops (beforeEnd tokens)) :
    ∃ p, Polish.ofTokens tokens = .ok p ∧ Formula.ofPolish p.tokens = .ok f := by
  obtain ⟨e, he, hreads⟩ := h
  obtain ⟨new, held, -, hbuilds, hrun⟩ := hreads.yields hc (he ▸ hw)
  obtain ⟨y, hy, hl⟩ := hrun .start rfl fun b _ => by simp [Yard.Rests, Yard.start]
  obtain ⟨place, hplace⟩ := Yard.run_of_advance (he ▸ hy)
  have hpending : y.pending = operators held := by simp [hl.pending, Yard.start]
  have hend : y.finish place = .ok ⟨new ++ held.map Prod.snd, y.names⟩ := by
    rw [Yard.finish_operators place hl.complete hpending, hl.emitted]
    simp [Yard.start]
  exact ⟨_, hplace.trans hend, hbuilds.ofPolish⟩

/-- **From accepted tokens the reading is built, and it is the only one.** This holds of every set
of token classes with coherent operators, and the whole language and its core are such sets. -/
theorem ofPolish_eq_reading :
    (∀ {classes : Set TokenClass} {tokens : List Token} {p : Polish},
      Coherent (operatorsOf classes) →
      (∀ t ∈ beforeEnd tokens, t.isOperator = true → t.cls ∈ classes) →
      Polish.ofTokens tokens = .ok p →
        ∃ f, Formula.ofPolish p.tokens = .ok f ∧ ∀ g, IsReading (beforeEnd tokens) g ↔ g = f) ∧
    Coherent (operatorsOf {c | c ∈ defaultClasses}) ∧
    Coherent (operatorsOf {c | c ∈ coreClasses}) := by
  refine ⟨fun hc hclasses hp => ?_, coherent_default fun c hc => hc,
    coherent_default fun c hc => TokenClass.mem_defaultClasses_of_mem_coreClasses hc⟩
  rename_i classes tokens p
  have hw : Within (operatorsOf classes) (beforeEnd tokens) := fun t ht op hop =>
    ⟨t.cls, hclasses t ht (by simp [Token.isOperator, hop]), hop⟩
  have hbuilt : ∀ g, IsReading (beforeEnd tokens) g → Formula.ofPolish p.tokens = .ok g := by
    intro g hg
    obtain ⟨q, hq, hf⟩ := hg.ofTokens hc hw
    rw [hp] at hq
    cases hq
    exact hf
  obtain ⟨e, he⟩ := isExpression_of_ofTokens hp
  obtain ⟨f, hf⟩ := Chain.exists_reads hc (he ▸ hw)
  have hreading : IsReading (beforeEnd tokens) f := ⟨e, he, hf⟩
  refine ⟨f, hbuilt f hreading, fun g => ⟨fun hg => ?_, fun hg => hg ▸ hreading⟩⟩
  exact Except.ok.inj ((hbuilt g hg).symm.trans (hbuilt f hreading))

theorem ofPolish_eq_reading_arrow :
    Coherent (operatorsOf {arrowClass}) ∧
    (∀ t ∈ beforeEnd arrowTokens, t.isOperator = true → t.cls ∈ ({arrowClass} : Set TokenClass)) ∧
    ∃ p, Polish.ofTokens arrowTokens = .ok p ∧ ∀ g, IsReading (beforeEnd arrowTokens) g ↔
      g = .binary .implies (.var "A") (.binary .implies (.var "B") (.var "C")) := by
  have hc : Coherent (operatorsOf {arrowClass}) := by
    have hall : ∀ op ∈ operatorsOf {arrowClass}, op = ⟨.implies, 1, .right⟩ := by
      rintro op ⟨c, rfl, hop⟩
      cases hop
      rfl
    refine ⟨fun a ha => ?_, fun u hu b hb => ?_, fun a ha b hb => ?_⟩
    · rw [hall a ha]
      exact .inr rfl
    · rw [hall u hu]
      exact fun h => absurd h (by decide)
    · rw [hall a ha, hall b hb]
      exact fun _ _ _ => rfl
  have hclasses : ∀ t ∈ beforeEnd arrowTokens, t.isOperator = true →
      t.cls ∈ ({arrowClass} : Set TokenClass) := by
    have hall : ∀ t ∈ beforeEnd arrowTokens, t.isOperator = true → t.cls = arrowClass := by decide
    exact hall
  refine ⟨hc, hclasses, _, rfl, ?_⟩
  obtain ⟨f, hf, hg⟩ := ofPolish_eq_reading.1 hc hclasses rfl
  cases hf
  exact hg

end Propositional
