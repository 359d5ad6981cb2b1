import Propositional.Proofs.ClassOrder
import Propositional.Proofs.Tabulation

/-!
# The core of the language

The language extends its core by three operators. Where the words of these operators are not used as
names, a text of the core means the same in the whole language, and where the operators do not
occur, a text of the whole language means the same in the core.

* `scanFrom_of_scans` — two languages that find the same pieces have the same scan.
* `firstMatch_default_of_core`, `firstMatch_core_of_default` — where both find the same.
* `read_core_default` — the readings of texts in both languages.
-/

namespace Propositional

open TokenClass

/-! ## One scan in two languages -/

/-- If each piece of a scan that comes to the end of its text is found in another language, too,
this is the scan in that language. By induction on the pieces. -/
theorem scanFrom_of_scans {classes classes' : List TokenClass} {place : Nat} {cs : List Char}
    {s : Scan} (hs : Scans classes place cs s) (hend : s.ending = .complete)
    (h : ∀ t ∈ s.lexemes, ∀ cs n, firstMatch classes cs = .ok (some (t.cls, n)) →
      t.value = String.ofList (cs.take n) → firstMatch classes' cs = .ok (some (t.cls, n))) :
    scanFrom classes' 0 place cs = s := by
  induction hs with
  | finished place => rw [scanFrom]
  | @piece place n cs c s hmatch hpos hlen hs ih =>
    obtain ⟨hfirst, hrest⟩ := List.forall_mem_cons.mp h
    rw [scanFrom_of_firstMatch place (hfirst cs n hmatch rfl) hpos hlen, ih hend hrest]
    rfl
  | stuck => cases hend

/-- What is read is what is scanned. -/
theorem read_eq_of_scan_eq {lexer lexer' : Lexer} {text : String}
    (h : lexer'.scan text = lexer.scan text) : lexer'.read text = lexer.read text := by
  unfold Lexer.read
  rw [h]

/-! ## The classes of the two languages -/

theorem mem_defaultClasses_iff {c : TokenClass} :
    c ∈ defaultClasses ↔ c ∈ coreClasses ∨ c ∈ Collection.extended.classes := by
  have h : defaultClasses = coreClasses ++ Collection.extended.classes := by decide
  rw [h, List.mem_append]

theorem wordSpellings_extended :
    wordSpellings Collection.extended.classes = ["XOR", "IMPLIES", "IFF"] := by
  decide +kernel

/-- What the core finds is found in the whole language, unless it is a name that is a word of the
extension. -/
theorem firstMatch_default_of_core {c : TokenClass} {cs : List Char} {n : Nat}
    (h : firstMatch Lexer.core.classes cs = .ok (some (c, n)))
    (hword : c = variableName → String.ofList (cs.take n) ∉ ["XOR", "IMPLIES", "IFF"]) :
    firstMatch Lexer.default.classes cs = .ok (some (c, n)) := by
  obtain ⟨hc, hfound, hnone⟩ :=
    (firstMatch_ofClasses_iff fun _ => mem_defaultClasses_of_mem_coreClasses).mp h
  refine (firstMatch_ofClasses_iff fun _ hd => hd).mpr
    ⟨mem_defaultClasses_of_mem_coreClasses hc, hfound, fun heq d hd hne => ?_⟩
  rcases mem_defaultClasses_iff.mp hd with hd' | hd'
  · exact hnone heq d hd' hne
  · rw [heq] at hfound
    -- the name is the whole of its word, so no operator of the extension begins there
    obtain ⟨hs, rest, hcs, hrest⟩ := exists_of_lexeme?_name hfound
    have hnot := hs.not_mem_spellings (wordSpellings_extended ▸ hword heq) d hd'
    rcases mem_defaultClasses.mp hd with rfl | rfl | rfl | rfl | ⟨k, rfl⟩
    · exact absurd hd' (by decide)
    · exact absurd hd' (by decide)
    · exact absurd hd' (by decide)
    · exact absurd rfl hne
    · rw [hcs]
      exact lexeme?_tokenClass_name hs hnot hrest

/-- What the whole language finds is found in the core, unless it is an operator of the extension.
-/
theorem firstMatch_core_of_default {c : TokenClass} {cs : List Char} {n : Nat}
    (h : firstMatch Lexer.default.classes cs = .ok (some (c, n)))
    (hc : c ∉ Collection.extended.classes) :
    firstMatch Lexer.core.classes cs = .ok (some (c, n)) := by
  obtain ⟨hmem, hfound, hnone⟩ := (firstMatch_ofClasses_iff fun _ hd => hd).mp h
  refine (firstMatch_ofClasses_iff fun _ => mem_defaultClasses_of_mem_coreClasses).mpr
    ⟨(mem_defaultClasses_iff.mp hmem).resolve_right hc, hfound, fun heq d hd hne => ?_⟩
  exact hnone heq d (mem_defaultClasses_of_mem_coreClasses hd) hne

/-! ## Readings -/

namespace Lexer.Standard

variable {lexer : Lexer} (h : lexer.Standard)

include h

/-- The scan of a text that is read comes to its end. -/
theorem complete_of_read {text : String} {r : Reading} (hr : lexer.read text = .ok r) :
    (lexer.scan text).ending = .complete := by
  obtain ⟨ts, htokens, -⟩ := h.exists_isReading hr
  obtain ⟨us, hus, ⟨-, hend⟩ | ⟨hs, e, hend⟩⟩ := h.scan_cases text
  · exact hend
  · have hmem : endToken text.length ∈ us := by
      rw [← hs, htokens]
      simp
    exact absurd rfl (h.role_ne_finish (hus _ hmem))

/-- The names among the tokens of a text are its variables. -/
theorem mem_names_of_token {text : String} {r : Reading} (hr : lexer.read text = .ok r) {t : Token}
    (ht : t ∈ (lexer.scan text).tokens) (hname : t.role = .identifier) :
    t.value ∈ r.names.names := by
  obtain ⟨ts, htokens, hreading, -⟩ := h.exists_isReading hr
  rw [h.names_of_read hr, hreading.occurrences, List.mem_eraseDups, identifiers, List.mem_filterMap]
  rw [htokens, List.mem_append, List.mem_singleton] at ht
  rcases ht with ht | rfl
  · exact ⟨t, ht, by simp [Token.name?, hname]⟩
  · cases hname

end Lexer.Standard

/-- A piece that is no blank is a token. -/
theorem Scan.mem_tokens {s : Scan} {t : Token} (ht : t ∈ s.lexemes)
    (hblank : t.cls.isBlank = false) : t ∈ s.tokens :=
  List.mem_filter.mpr ⟨ht, by simp [hblank]⟩

/-- **The whole language is a conservative extension of its core.** A text that is read in the core,
without a variable called like an operator of the extension, is read in the whole language as the
same formula, with the same tokens in reverse Polish notation and the same variables. A text that is
read in the whole language, without an operator of the extension among its tokens, is read in the
core as the same. -/
theorem read_core_default :
    (∀ (text : String) (r : Reading), Lexer.core.read text = .ok r →
      (∀ x ∈ r.names.names, x ∉ ["XOR", "IMPLIES", "IFF"]) → Lexer.default.read text = .ok r) ∧
    ∀ (text : String) (r : Reading), Lexer.default.read text = .ok r →
      (∀ t ∈ (Lexer.default.scan text).tokens, t.cls ∉ [exclusion, implication, equivalence]) →
        Lexer.core.read text = .ok r := by
  constructor
  · intro text r hr hnames
    have h := Lexer.standard_core
    have hscan : Lexer.default.scan text = Lexer.core.scan text := by
      have hend := h.complete_of_read hr
      refine scanFrom_of_scans (h.scans text) hend fun t ht cs n hmatch hvalue => ?_
      refine firstMatch_default_of_core hmatch fun hcls => ?_
      have hblank : t.cls.isBlank = false := by rw [hcls]; rfl
      have hrole : t.role = .identifier := congrArg TokenClass.role hcls
      rw [← hvalue]
      exact hnames _ (h.mem_names_of_token hr (Scan.mem_tokens ht hblank) hrole)
    rw [read_eq_of_scan_eq hscan, hr]
  · intro text r hr htokens
    have h := Lexer.standard_default
    have hscan : Lexer.core.scan text = Lexer.default.scan text := by
      have hend := h.complete_of_read hr
      refine scanFrom_of_scans (h.scans text) hend fun t ht cs n hmatch _ => ?_
      refine firstMatch_core_of_default hmatch fun hextended => ?_
      have hblank : t.cls.isBlank = false := by
        revert hextended
        generalize t.cls = c
        revert c
        decide
      exact htokens t (Scan.mem_tokens ht hblank) hextended
    rw [read_eq_of_scan_eq hscan, hr]

/-- Words that only begin like operators of the extension are names in both languages, and a word of
the extension is a name in the core alone. -/
theorem read_core_default_words :
    (∃ r, Lexer.core.read "XORS & !IF" = .ok r ∧ Lexer.default.read "XORS & !IF" = .ok r ∧
      r.formula = .binary .and (.var "XORS") (.unary .not (.var "IF")) ∧
      r.names.names = ["XORS", "IF"]) ∧
    (∃ r, Lexer.default.read "~a AND b" = .ok r ∧ Lexer.core.read "~a AND b" = .ok r) ∧
    ∃ r, Lexer.core.read "XOR" = .ok r ∧ Lexer.default.read "XOR" ≠ .ok r := by
  have hcore : Lexer.core.read "XORS & !IF" = .ok _ := rfl
  have hdefault : Lexer.default.read "~a AND b" = .ok _ := rfl
  refine ⟨⟨_, hcore, read_core_default.1 _ _ hcore (by decide), rfl, rfl⟩,
    ⟨_, hdefault, read_core_default.2 _ _ hdefault (by decide)⟩, ⟨_, rfl, nofun⟩⟩

end Propositional
