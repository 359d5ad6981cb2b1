import Propositional.Proofs.TextReading

/-!
# Printing and reading back

A printed formula is scanned from its beginning, whatever follows it, as long as no letter or digit
does. The pieces are the concrete syntax of an operand that is read as the formula.

* `Scan.Leads` — a scan begins with some tokens and goes on as another scan.
* `Lexer.Standard.leads_display` — the scan of a printed formula.
* `read_display` — a printed formula is read as the formula itself.
-/

namespace Propositional

open TokenClass

/-! ## Scans that begin in a known way -/

/-- The first scan begins with some tokens; from there on it is the second one. -/
structure Scan.Leads (s : Scan) (ts : List Token) (rest : Scan) : Prop where
  tokens : s.tokens = ts ++ rest.tokens
  ending : s.ending = rest.ending

theorem Scan.Leads.trans {s s' s'' : Scan} {ts us : List Token} (h : s.Leads ts s')
    (h' : s'.Leads us s'') : s.Leads (ts ++ us) s'' where
  tokens := by rw [h.tokens, h'.tokens, List.append_assoc]
  ending := h.ending.trans h'.ending

/-- A text as a token of a class at a place. -/
def tokenAt (c : TokenClass) (place : Nat) (text : List Char) : Token :=
  ⟨c, String.ofList text, place, place + text.length⟩

section

variable {classes : List TokenClass} {c : TokenClass} {text rest : List Char}

theorem scanFrom_append (place : Nat) (hne : text ≠ [])
    (h : firstMatch classes (text ++ rest) = .ok (some (c, text.length))) :
    scanFrom classes 0 place (text ++ rest) =
      (scanFrom classes 0 (place + text.length) rest).cons (tokenAt c place text) := by
  have hpos : 0 < text.length := List.length_pos_iff.mpr hne
  have hlen : text.length ≤ (text ++ rest).length := by rw [List.length_append]; omega
  rw [scanFrom_of_firstMatch place h hpos hlen, List.drop_left, pieceAt, List.take_left, tokenAt]

theorem leads_token (place : Nat) (hne : text ≠ []) (hc : c.isBlank = false)
    (h : firstMatch classes (text ++ rest) = .ok (some (c, text.length))) :
    (scanFrom classes 0 place (text ++ rest)).Leads [tokenAt c place text]
      (scanFrom classes 0 (place + text.length) rest) := by
  rw [scanFrom_append place hne h]
  refine ⟨?_, rfl⟩
  simp [Scan.tokens, Scan.cons, tokenAt, hc]

theorem leads_blank (place : Nat) (hne : text ≠ []) (hc : c.isBlank = true)
    (h : firstMatch classes (text ++ rest) = .ok (some (c, text.length))) :
    (scanFrom classes 0 place (text ++ rest)).Leads []
      (scanFrom classes 0 (place + text.length) rest) := by
  rw [scanFrom_append place hne h]
  refine ⟨?_, rfl⟩
  simp [Scan.tokens, Scan.cons, tokenAt, hc]

end

/-! ## Printed formulas -/

theorem Connective.endsBlanks_symbol (k : Connective) (rest : List Char) :
    EndsBlanks (k.symbol.toList ++ rest) := by
  cases k <;> exact EndsBlanks.cons _ (by decide)

/-- A printed formula begins with a letter, a negation or a parenthesis. -/
theorem Formula.Expressible.endsBlanks_display {classes : List TokenClass} {f : Formula}
    (hf : f.Expressible classes) (rest : List Char) : EndsBlanks (f.display.toList ++ rest) := by
  cases f with
  | var name =>
    obtain ⟨⟨a, as, hname, ha, -⟩, -⟩ := hf
    rw [display, hname]
    exact .cons _ (isBlank_of_isWordChar (isWordChar_of_isLetter ha))
  | unary k f =>
    obtain ⟨rfl, -⟩ := hf
    rw [display, String.toList_append]
    exact @EndsBlanks.cons '!' _ (by decide)
  | binary k l r =>
    simp only [display, String.toList_append]
    exact @EndsBlanks.cons '(' _ (by decide)
  | foreign v => exact absurd hf id

namespace Lexer.Standard

variable {lexer : Lexer} (h : lexer.Standard)

include h

theorem leads_mark {c : TokenClass} {a : Char} (hmark : (c, a) ∈ marks) (place : Nat)
    (rest : List Char) : (scanFrom lexer.classes 0 place (a :: rest)).Leads [tokenAt c place [a]]
      (scanFrom lexer.classes 0 (place + 1) rest) := by
  have hc : c.isBlank = false := by
    simp only [marks, List.mem_cons, List.not_mem_nil, or_false, Prod.mk.injEq] at hmark
    rcases hmark with ⟨rfl, -⟩ | ⟨rfl, -⟩ | ⟨rfl, -⟩ <;> rfl
  exact leads_token place (List.cons_ne_nil a []) hc (h.firstMatch_mark hmark rest)

theorem leads_space (place : Nat) {rest : List Char} (hrest : EndsBlanks rest) :
    (scanFrom lexer.classes 0 place (' ' :: rest)).Leads []
      (scanFrom lexer.classes 0 (place + 1) rest) := by
  have hmatch := h.firstMatch_blanks (List.cons_ne_nil ' ' []) (List.forall_mem_singleton.mpr rfl)
    hrest
  exact leads_blank place (List.cons_ne_nil ' ' []) rfl hmatch

theorem leads_symbol {k : Connective} (hk : k.tokenClass ∈ lexer.classes) (place : Nat)
    (rest : List Char) : (scanFrom lexer.classes 0 place (k.symbol.toList ++ ' ' :: rest)).Leads
      [tokenAt k.tokenClass place k.symbol.toList]
      (scanFrom lexer.classes 0 (place + k.symbol.length) (' ' :: rest)) := by
  rw [← String.length_toList]
  refine leads_token place (by cases k <;> decide) (by cases k <;> rfl) ?_
  rw [String.length_toList]
  exact h.firstMatch_symbol hk rest

theorem leads_name {s : String} {rest : List Char} (hs : IsName s)
    (hword : s ∉ wordSpellings lexer.classes) (hrest : EndsWord rest) (place : Nat) :
    (scanFrom lexer.classes 0 place (s.toList ++ rest)).Leads
      [tokenAt variableName place s.toList]
      (scanFrom lexer.classes 0 (place + s.length) rest) := by
  rw [← String.length_toList]
  refine leads_token place hs.toList_ne_nil rfl ?_
  rw [String.length_toList]
  exact h.firstMatch_name hs hword hrest

/-- **A printed formula is scanned as an operand that is read as the formula.** By induction on the
formula; what follows it and where it stands are left open. -/
theorem leads_display : ∀ {f : Formula}, f.Expressible lexer.classes → ∀ {rest : List Char},
    EndsWord rest → ∀ place, ∃ (x : Operand) (place' : Nat), x.Reads f ∧
      (scanFrom lexer.classes 0 place (f.display.toList ++ rest)).Leads x.tokens
        (scanFrom lexer.classes 0 place' rest)
  | .var name, ⟨hname, hword⟩, rest, hrest, place => by
    let t : NameToken := ⟨tokenAt variableName place name.toList, rfl⟩
    have hvalue : t.val.value = name := String.ofList_toList
    refine ⟨.name t, _, ?_, h.leads_name hname hword hrest place⟩
    have hreads := Operand.Reads.name t
    rwa [hvalue] at hreads
  | .unary _ f, ⟨rfl, hf⟩, rest, hrest, place => by
    let u : PrefixToken := ⟨tokenAt negation place ['!'], .ofKind .not, rfl, rfl⟩
    obtain ⟨x, place', hx, hscan⟩ := leads_display hf hrest (place + 1)
    refine ⟨.prefixed u x, place', .prefixed u hx, ?_⟩
    have htext : (Formula.unary .not f).display.toList ++ rest =
        '!' :: (f.display.toList ++ rest) := by
      rw [Formula.display, String.toList_append]
      rfl
    have hmark := h.leads_mark (c := negation) (a := '!') (by simp [marks]) place
      (f.display.toList ++ rest)
    rw [htext]
    exact hmark.trans hscan
  | .binary k l r, ⟨harity, hk, hl, hr⟩, rest, hrest, place => by
    have htext : (Formula.binary k l r).display.toList ++ rest = '(' :: (l.display.toList ++
        ' ' :: (k.symbol.toList ++ ' ' :: (r.display.toList ++ ')' :: rest))) := by
      simp only [Formula.display, String.toList_append, List.append_assoc]
      rfl
    have hspace : ∀ text, EndsWord (' ' :: text) := fun text => .cons text (by decide)
    have hclosing : EndsWord (')' :: rest) := .cons rest (by decide)
    -- one piece after the other
    have hopening := h.leads_mark (c := openParenthesis) (a := '(') (by simp [marks]) place
      (l.display.toList ++ ' ' :: (k.symbol.toList ++ ' ' :: (r.display.toList ++ ')' :: rest)))
    obtain ⟨x, p₁, hx, hleft⟩ := leads_display hl (hspace _) (place + 1)
    have hspace₁ := h.leads_space p₁ (k.endsBlanks_symbol (' ' :: (r.display.toList ++ ')' :: rest)))
    have hop := h.leads_symbol hk (p₁ + 1) (r.display.toList ++ ')' :: rest)
    have hspace₂ := h.leads_space (p₁ + 1 + k.symbol.length) (hr.endsBlanks_display (')' :: rest))
    obtain ⟨y, p₂, hy, hright⟩ := leads_display hr hclosing (p₁ + 1 + k.symbol.length + 1)
    have hclose := h.leads_mark (c := closeParenthesis) (a := ')') (by simp [marks]) p₂ rest
    let o : OpeningToken := ⟨tokenAt openParenthesis place ['('], rfl⟩
    let c : ClosingToken := ⟨tokenAt closeParenthesis p₂ [')'], rfl⟩
    let b : InfixToken :=
      ⟨tokenAt k.tokenClass (p₁ + 1) k.symbol.toList, .ofKind k, k.tokenClass_role, harity⟩
    have hsplit : (Chain.last x).IsSplit b (.last y) :=
      ⟨by simp [Chain.infixes], by simp [Chain.infixes], by simp [Chain.infixes],
        by simp [Chain.infixes]⟩
    refine ⟨.group o (.link x b (.last y)) c, p₂ + 1, .group o c (.split hsplit (.last hx) (.last hy)),
      ?_⟩
    rw [htext]
    have hall := hopening.trans (hleft.trans (hspace₁.trans (hop.trans (hspace₂.trans
      (hright.trans hclose)))))
    simpa [Operand.tokens, Chain.tokens, o, b, c] using hall

/-- **A printed formula is read as the formula, with its variables.** -/
theorem read_display_of_expressible {f : Formula} (hf : f.Expressible lexer.classes) :
    ∃ r, lexer.read f.display = .ok r ∧ r.formula = f ∧ r.names = f.names := by
  obtain ⟨x, n, hx, hscan⟩ := h.leads_display hf .nil 0
  rw [List.append_nil] at hscan
  have hend : scanFrom lexer.classes 0 n [] = ⟨[endToken n], .complete⟩ := by rw [scanFrom]
  rw [hend] at hscan
  refine h.read_of_isReading (n := n) hscan.tokens hscan.ending ⟨.last x, ?_, .last hx⟩
  rw [Chain.tokens]

end Lexer.Standard

/-- **Printing and then reading gives the formula back**, in the whole language and in its core.
So no two formulas are printed the same, and the printed form of what a text is read as is read as
the same formula. -/
theorem read_display {lexer : Lexer} (hlexer : lexer = .default ∨ lexer = .core) :
    (∀ f : Formula, f.Expressible lexer.classes →
      ∃ r, lexer.read f.display = .ok r ∧ r.formula = f ∧ r.names = f.names) ∧
    (∀ f g : Formula, f.Expressible lexer.classes → g.Expressible lexer.classes →
      f.display = g.display → f = g) ∧
    (∀ text r, lexer.read text = .ok r → r.formula.Expressible lexer.classes ∧
      ∃ r', lexer.read r.formula.display = .ok r' ∧ r'.formula = r.formula) := by
  have h : lexer.Standard := Lexer.standard_of_eq hlexer
  refine ⟨fun f hf => h.read_display_of_expressible hf, fun f g hf hg heq => ?_,
    fun text r hr => ?_⟩
  · obtain ⟨r, hr, rfl, -⟩ := h.read_display_of_expressible hf
    obtain ⟨s, hs, rfl, -⟩ := h.read_display_of_expressible hg
    rw [heq, hs, Except.ok.injEq] at hr
    rw [hr]
  · obtain ⟨ts, -, -, -, hf⟩ := h.exists_isReading hr
    obtain ⟨r', hr', hf', -⟩ := h.read_display_of_expressible hf
    exact ⟨hf, r', hr', hf'⟩

/-- In the core language `XOR` is a name like any other. -/
def xorNamed : Formula := .binary .and (.unary .not (.var "XOR")) (.var "p")

theorem read_display_xorNamed :
    (Lexer.core = .default ∨ Lexer.core = .core) ∧ xorNamed.Expressible Lexer.core.classes ∧
      ∃ r, Lexer.core.read "(!XOR && p)" = .ok r ∧ r.formula = xorNamed := by
  have hlexer : Lexer.core = .default ∨ Lexer.core = .core := .inr rfl
  have hexpressible : xorNamed.Expressible Lexer.core.classes := by
    have hwords := Lexer.wordSpellings_core
    refine ⟨rfl, by decide, ⟨rfl, ?_, by rw [hwords]; decide⟩, ?_, by rw [hwords]; decide⟩
    · exact ⟨'X', ['O', 'R'], by decide, by decide, List.all_eq_true.mp (by decide)⟩
    · exact ⟨'p', [], by decide, by decide, List.all_eq_true.mp (by decide)⟩
  obtain ⟨r, hr, hf, -⟩ := (read_display hlexer).1 xorNamed hexpressible
  have hdisplay : xorNamed.display = "(!XOR && p)" := by decide
  exact ⟨hlexer, hexpressible, r, hdisplay ▸ hr, hf⟩

end Propositional
