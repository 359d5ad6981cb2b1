import Propositional.Proofs.Language
import Propositional.Proofs.Variables
import Propositional.Proofs.YardReading

/-!
# Texts and their readings

* `Formula.Expressible` — the formulas of a language.
* `Lexer.Standard.scan_cases` — the tokens of a text are found in it, one after the other.
* `Lexer.Standard.read_of_isReading` — a text is read as its tokens are.
* `Lexer.Standard.exists_isReading` — where the formula and the variables of a text come from.
-/

namespace Propositional

open TokenClass

/-- A formula of the language of some classes: its variables are names that are not word spellings,
and its connectives are among the classes, each over as many formulas as it takes. -/
def Formula.Expressible (classes : List TokenClass) : Formula → Prop
  | var name => IsName name ∧ name ∉ wordSpellings classes
  | unary k f => k = .not ∧ f.Expressible classes
  | binary k l r =>
    k.arity = 2 ∧ k.tokenClass ∈ classes ∧ l.Expressible classes ∧ r.Expressible classes
  | foreign _ => False

namespace Lexer.Standard

variable {lexer : Lexer} (h : lexer.Standard)

include h

/-! ## Tokens that are found -/

theorem role_ne_finish {t : Token} (ht : Found lexer.classes t) : t.role ≠ .finish :=
  role_ne_finish_of_mem (h.known t.cls ht.cls_mem)

/-- Operators that are found bind as their connectives do. -/
theorem eq_tokenClass_of_found {t : Token} {op : Operator} (ht : Found lexer.classes t)
    (hop : t.role = .operator op) : op = .ofKind op.kind ∧ t.cls = op.kind.tokenClass :=
  eq_tokenClass (h.known t.cls ht.cls_mem) hop

theorem coherent : Coherent (operatorsOf {c | c ∈ lexer.classes}) :=
  coherent_default fun c hc => h.known c hc

omit h in
theorem within {ts : List Token} (hts : ∀ t ∈ ts, Found lexer.classes t) :
    Within (operatorsOf {c | c ∈ lexer.classes}) ts :=
  fun t ht _ hop => ⟨t.cls, (hts t ht).cls_mem, hop⟩

/-! ## Formulas of the language -/

mutual

theorem expressible_of_operand : ∀ {x : Operand} {f : Formula}, x.Reads f →
    (∀ t ∈ x.tokens, Found lexer.classes t) → f.Expressible lexer.classes
  | _, _, .name t, hts => by
    have ht : Found lexer.classes t.val := hts t.val (by simp [Operand.tokens])
    exact h.isName_of_found ht (eq_variableName (h.known _ ht.cls_mem) t.property)
  | _, _, .prefixed u hx, hts => by
    refine ⟨?_, expressible_of_operand hx fun t ht => hts t (by simp [Operand.tokens, ht])⟩
    have harity := u.arity_eq
    cases hk : u.op.kind with
    | not => rfl
    | _ => simp [hk, Connective.arity] at harity
  | _, _, .group o c he, hts =>
    expressible_of_chain he fun t ht => hts t (by simp [Operand.tokens, ht])

theorem expressible_of_chain : ∀ {e : Chain} {f : Formula}, e.Reads f →
    (∀ t ∈ e.tokens, Found lexer.classes t) → f.Expressible lexer.classes
  | _, _, .last hx, hts => expressible_of_operand hx hts
  | _, _, .split (b := b) hsplit hl hr, hts => by
    simp only [Chain.tokens_join, List.mem_append, List.mem_cons] at hts
    have hb : Found lexer.classes b.token := hts b.token (.inr (.inl rfl))
    refine ⟨b.arity_eq, ?_, expressible_of_chain hl fun t ht => hts t (.inl ht),
      expressible_of_chain hr fun t ht => hts t (.inr (.inr ht))⟩
    rw [← (h.eq_tokenClass_of_found hb b.role_eq).2]
    exact hb.cls_mem

end

/-! ## Texts -/

/-- A text is scanned piece by piece. -/
theorem scans (text : String) : Scans lexer.classes 0 text.toList (lexer.scan text) :=
  scans_scanFrom (fun c hc => solid_of_mem (h.known c hc)) 0 text.toList

/-- The tokens of a text are found in it. They go on to its end, or up to where there is none. -/
theorem scan_cases (text : String) : ∃ ts, (∀ t ∈ ts, Found lexer.classes t) ∧
    (((lexer.scan text).tokens = ts ++ [endToken text.length] ∧
        (lexer.scan text).ending = .complete) ∨
      (lexer.scan text).tokens = ts ∧ ∃ e, (lexer.scan text).ending = .failed e) := by
  obtain ⟨ts, hts, hend⟩ := (h.scans text).lexemes_eq
  refine ⟨ts.filter (!·.cls.isBlank), fun t ht => hts t (List.mem_filter.mp ht).1, ?_⟩
  rcases hend with hs | ⟨c, p, hs⟩
  · left
    rw [hs, Nat.zero_add, String.length_toList]
    refine ⟨?_, rfl⟩
    simp only [Scan.tokens, List.filter_append]
    rfl
  · right
    rw [hs]
    exact ⟨rfl, _, rfl⟩

omit h in
theorem beforeEnd_append_endToken {ts : List Token} (n : Nat) (hts : ∀ t ∈ ts, t.role ≠ .finish) :
    beforeEnd (ts ++ [endToken n]) = ts := by
  unfold beforeEnd
  rw [List.takeWhile_append_of_pos fun t ht => by simpa using hts t ht]
  exact List.append_nil ts

/-- **A text is read as its tokens are.** -/
theorem read_of_isReading {text : String} {ts : List Token} {n : Nat} {f : Formula}
    (hs : (lexer.scan text).tokens = ts ++ [endToken n])
    (hend : (lexer.scan text).ending = .complete) (hf : IsReading ts f) :
    ∃ r, lexer.read text = .ok r ∧ r.formula = f ∧ r.names = f.names := by
  obtain ⟨us, hus, ⟨hus', -⟩ | ⟨-, e, he⟩⟩ := h.scan_cases text
  · rw [hs] at hus'
    obtain ⟨rfl, -⟩ := List.append_inj' hus' rfl
    have hbefore := beforeEnd_append_endToken n fun t ht => h.role_ne_finish (hus t ht)
    rw [← hbefore] at hf
    obtain ⟨p, hp, hbuilt⟩ := hf.ofTokens h.coherent (hbefore.symm ▸ within hus)
    have hscan : Polish.ofScan (lexer.scan text) = .ok p := by
      simp only [Polish.ofScan, hend, hs]
      exact hp
    refine ⟨⟨p.tokens, p.names, f⟩, ?_, rfl, ?_⟩
    · unfold Lexer.read
      rw [hscan]
      show Reading.ofPolish p = _
      unfold Reading.ofPolish
      rw [hbuilt]
      rfl
    · rw [f.names_eq, hf.occurrences]
      exact names_ofTokens hp
  · rw [hend] at he
    cases he

end Lexer.Standard

/-- A run that meets an error at the end of its tokens gives nothing. -/
theorem Yard.run_failed {e : ReadError} {p : Polish} {tokens : List Token} {y : Yard}
    (htokens : ∀ t ∈ tokens, t.role ≠ .finish) : y.run (fun _ => .error e) tokens ≠ .ok p := by
  intro h
  rcases advance_cases tokens y with ⟨y', hy'⟩ | ⟨taken, t, rest, y', e', rfl, hy', ht⟩
  · rw [← List.append_nil tokens, run_append hy'] at h
    cases h
  · rw [run_append hy', run_refused (htokens t (by simp)) ht] at h
    cases h

namespace Lexer.Standard

variable {lexer : Lexer} (h : lexer.Standard)

include h

/-- **What a text is read as.** Its tokens have the formula as their reading, the variables are those
of the formula, and the formula belongs to the language. -/
theorem exists_isReading {text : String} {r : Reading} (hr : lexer.read text = .ok r) :
    ∃ ts, (lexer.scan text).tokens = ts ++ [endToken text.length] ∧ IsReading ts r.formula ∧
      r.names = r.formula.names ∧ r.formula.Expressible lexer.classes := by
  obtain ⟨ts, hts, ⟨hs, hend⟩ | ⟨hs, e, hend⟩⟩ := h.scan_cases text
  · have hbefore := beforeEnd_append_endToken text.length fun t ht => h.role_ne_finish (hts t ht)
    obtain ⟨p, hp⟩ : ∃ p, Polish.ofTokens (lexer.scan text).tokens = .ok p := by
      cases hp : Polish.ofTokens (lexer.scan text).tokens with
      | ok p => exact ⟨p, rfl⟩
      | error e =>
        have hscan : Polish.ofScan (lexer.scan text) = .error e := by
          rw [← hp]
          simp only [Polish.ofScan, hend]
          rfl
        simp only [Lexer.read, hscan] at hr
        cases hr
    obtain ⟨c, hc⟩ := isExpression_of_ofTokens hp
    rw [hs, hbefore] at hc
    obtain ⟨f, hf⟩ := Chain.exists_reads h.coherent (hc.symm ▸ within hts)
    obtain ⟨r', hr', rfl, hnames⟩ := h.read_of_isReading hs hend ⟨c, hc, hf⟩
    rw [hr, Except.ok.injEq] at hr'
    subst hr'
    refine ⟨ts, hs, ⟨c, hc, hf⟩, hnames, h.expressible_of_chain hf ?_⟩
    rw [hc]
    exact hts
  · have hfails : ∀ p, Polish.ofScan (lexer.scan text) ≠ .ok p := by
      intro p
      simp only [Polish.ofScan, hend, hs]
      exact Yard.run_failed fun t ht => h.role_ne_finish (hts t ht)
    cases hp : Polish.ofScan (lexer.scan text) with
    | ok p => exact absurd hp (hfails p)
    | error e =>
      simp only [Lexer.read, hp] at hr
      cases hr

end Lexer.Standard

end Propositional
