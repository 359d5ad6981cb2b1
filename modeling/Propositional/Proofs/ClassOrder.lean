import Propositional.Proofs.MaximalMunch

/-!
# The order of the token classes

A lexer tries its classes one after the other, so the order of its language could matter. Of the
classes of the expression language at most one has a token at a place, apart from that of names, and
names are tried last: it makes no difference in which order the classes are given, and how often.

* `Begins` — the characters that the tokens of a class begin with.
* `eq_of_lexeme?` — two classes with tokens at one place are the same, apart from that of names.
* `firstMatch_ofClasses_iff` — what a lexer finds, by the members of its language.
* `scanFrom_congr` — a scan depends on what is found only.
* `scan_eq_of_mem_iff` — lexers of the same classes scan alike.
-/

namespace Propositional

open TokenClass

/-! ## One class at a place -/

/-- A token of the class, which is not that of names, can begin with the character. -/
inductive Begins : TokenClass → Char → Prop where
  | blank {a : Char} (h : isBlank a = true) : Begins whitespace a
  | parenthesis {c : TokenClass} {a : Char} (h : IsParenthesis c a) : Begins c a
  | operator (k : Connective) {a : Char} (hblank : isBlank a = false) (hopening : a ≠ '(')
    (hclosing : a ≠ ')') : Begins k.tokenClass a

theorem IsParenthesis.isBlank {c : TokenClass} {a : Char} (h : IsParenthesis c a) :
    isBlank a = false := by
  cases h <;> decide

/-- The character says which class it is, unless it begins an operator. -/
theorem Begins.eq_or_operators {c d : TokenClass} {a : Char} (hc : Begins c a) (hd : Begins d a) :
    c = d ∨ (∃ k : Connective, c = k.tokenClass) ∧ ∃ k : Connective, d = k.tokenClass := by
  cases hc with
  | blank ha =>
    cases hd with
    | blank _ => exact .inl rfl
    | parenthesis hp => exact absurd ha (by simp [hp.isBlank])
    | operator k hblank => exact absurd ha (by simp [hblank])
  | parenthesis hp =>
    cases hd with
    | blank ha => exact absurd ha (by simp [hp.isBlank])
    | parenthesis hq => exact .inl (hp.unique hq)
    | operator k _ hopening hclosing => cases hp <;> contradiction
  | operator j hblank hopening hclosing =>
    cases hd with
    | blank ha => exact absurd ha (by simp [hblank])
    | parenthesis hp => cases hp <;> contradiction
    | operator k => exact .inr ⟨⟨j, rfl⟩, ⟨k, rfl⟩⟩

/-- Where a class other than that of names has a token, the text begins with such a character. -/
theorem begins_of_lexeme? {c : TokenClass} (hc : c ∈ defaultClasses) (hne : c ≠ variableName)
    {cs : List Char} {n : Nat} (h : c.lexeme? cs = .ok (some n)) :
    ∃ a rest, cs = a :: rest ∧ Begins c a := by
  rcases mem_defaultClasses.mp hc with rfl | rfl | rfl | rfl | ⟨k, rfl⟩
  · by_cases hblank : EndsBlanks cs
    · rw [lexeme?_whitespace_eq_none hblank] at h
      cases h
    · obtain ⟨run, rest, rfl, hrun, hall, -⟩ := exists_run_of_not_endsBlanks hblank
      obtain ⟨a, as, rfl⟩ := List.exists_cons_of_ne_nil hrun
      exact ⟨a, as ++ rest, rfl, .blank (hall a List.mem_cons_self)⟩
  · obtain ⟨-, rest, rfl⟩ := eq_cons_of_lexeme?_parenthesis .opening h
    exact ⟨_, rest, rfl, .parenthesis .opening⟩
  · obtain ⟨-, rest, rfl⟩ := eq_cons_of_lexeme?_parenthesis .closing h
    exact ⟨_, rest, rfl, .parenthesis .closing⟩
  · exact absurd rfl hne
  · rw [lexeme?_tokenClass, Except.ok.injEq, Option.map_eq_some_iff] at h
    obtain ⟨s, hs, -⟩ := h
    obtain ⟨hmem, hfits⟩ := exists_of_fittingSpelling? hs
    have hp := prefix_of_spellingFits hfits
    cases cs with
    | nil =>
      have hnil : s.toList ≠ [] := (Lexeme.spelling hmem []).ne_nil hc
      exact absurd (List.prefix_nil.mp hp) hnil
    | cons a rest =>
      obtain ⟨hblank, hopening, hclosing⟩ := spelling_head hmem hp
      exact ⟨a, rest, rfl, .operator k hblank hopening hclosing⟩

/-- **At a place at most one class has a token**, that of names apart. -/
theorem eq_of_lexeme? {c d : TokenClass} (hc : c ∈ defaultClasses) (hd : d ∈ defaultClasses)
    (hc' : c ≠ variableName) (hd' : d ≠ variableName) {cs : List Char} {m n : Nat}
    (hm : c.lexeme? cs = .ok (some m)) (hn : d.lexeme? cs = .ok (some n)) : c = d := by
  obtain ⟨a, rest, rfl, hca⟩ := begins_of_lexeme? hc hc' hm
  obtain ⟨b, rest', heq, hdb⟩ := begins_of_lexeme? hd hd' hn
  obtain ⟨rfl, -⟩ := List.cons.inj heq
  rcases hca.eq_or_operators hdb with h | ⟨⟨j, rfl⟩, ⟨k, rfl⟩⟩
  · exact h
  · rw [lexeme?_tokenClass, Except.ok.injEq, Option.map_eq_some_iff] at hm hn
    obtain ⟨s, hs, -⟩ := hm
    obtain ⟨t, ht, -⟩ := hn
    obtain ⟨htmem, htfits⟩ := exists_of_fittingSpelling? ht
    have hkj := (length_le_of_spelling hs htmem (prefix_of_spellingFits htfits)).1
    rw [hkj]

/-! ## What a lexer finds -/

/-- Only names are identifiers. -/
theorem isIdentifier_iff {c : TokenClass} (hc : c ∈ defaultClasses) :
    c.isIdentifier = true ↔ c = variableName := by
  unfold isIdentifier
  rw [beq_iff_eq]
  exact ⟨eq_variableName hc, fun h => h ▸ rfl⟩

section

variable {classes : List TokenClass} (hknown : ∀ c ∈ classes, c ∈ defaultClasses)

include hknown

theorem mem_others_iff {c : TokenClass} : c ∈ classes.filter (!·.isIdentifier) ↔
    c ∈ classes ∧ c ≠ variableName := by
  rw [List.mem_filter, Bool.not_eq_true', ← Bool.not_eq_true]
  exact and_congr_right fun hc => not_congr (isIdentifier_iff (hknown c hc))

theorem mem_names_iff {c : TokenClass} : c ∈ classes.filter (·.isIdentifier) ↔
    c ∈ classes ∧ c = variableName := by
  rw [List.mem_filter]
  exact and_congr_right fun hc => isIdentifier_iff (hknown c hc)

/-- **What a lexer finds at a place** is the class that has a token there. A name is found if no
other class has one. -/
theorem firstMatch_ofClasses_iff {c : TokenClass} {cs : List Char} {n : Nat} :
    firstMatch (Lexer.ofClasses classes).classes cs = .ok (some (c, n)) ↔
      c ∈ classes ∧ c.lexeme? cs = .ok (some n) ∧
        (c = variableName → ∀ d ∈ classes, d ≠ variableName → d.lexeme? cs = .ok none) := by
  unfold Lexer.ofClasses
  rw [firstMatch_append]
  constructor
  · intro h
    split at h
    · rename_i hothers
      obtain ⟨hfound, before, after, hnames, -⟩ := exists_of_firstMatch h
      have hc := (mem_names_iff hknown).mp
        (hnames ▸ List.mem_append_right before List.mem_cons_self)
      exact ⟨hc.1, hfound, fun _ d hd hne =>
        firstMatch_eq_none.mp hothers d ((mem_others_iff hknown).mpr ⟨hd, hne⟩)⟩
    · obtain ⟨hfound, before, after, hothers, -⟩ := exists_of_firstMatch h
      have hc := (mem_others_iff hknown).mp
        (hothers ▸ List.mem_append_right before List.mem_cons_self)
      exact ⟨hc.1, hfound, fun heq => absurd heq hc.2⟩
  · rintro ⟨hc, hfound, hname⟩
    by_cases heq : c = variableName
    · have hothers : firstMatch (classes.filter (!·.isIdentifier)) cs = .ok none :=
        firstMatch_eq_none.mpr fun d hd =>
          hname heq d ((mem_others_iff hknown).mp hd).1 ((mem_others_iff hknown).mp hd).2
      rw [hothers]
      refine firstMatch_of_unique hfound ((mem_names_iff hknown).mpr ⟨hc, heq⟩) fun d hd hne => ?_
      exact absurd (((mem_names_iff hknown).mp hd).2.trans heq.symm) hne
    · have hothers : firstMatch (classes.filter (!·.isIdentifier)) cs = .ok (some (c, n)) := by
        have hmem := (mem_others_iff hknown).mpr ⟨hc, heq⟩
        refine firstMatch_of_unique hfound hmem fun d hd hne => ?_
        obtain ⟨hd, hd'⟩ := (mem_others_iff hknown).mp hd
        rcases (solid_of_mem (hknown d hd)).lexeme?_cases cs with hnone | ⟨m, hm, -⟩
        · exact hnone
        · exact absurd (eq_of_lexeme? (hknown d hd) (hknown c hc) hd' heq hm hfound) hne
      rw [hothers]

theorem solid_ofClasses : ∀ c ∈ (Lexer.ofClasses classes).classes, c.pattern.Solid := by
  intro c hc
  refine solid_of_mem (hknown c ?_)
  exact (List.mem_append.mp hc).elim (fun h => (List.mem_filter.mp h).1)
    fun h => (List.mem_filter.mp h).1

theorem firstMatch_ofClasses_congr {classes' : List TokenClass}
    (hsame : ∀ c, c ∈ classes ↔ c ∈ classes') (cs : List Char) :
    firstMatch (Lexer.ofClasses classes).classes cs =
      firstMatch (Lexer.ofClasses classes').classes cs := by
  have hknown' : ∀ c ∈ classes', c ∈ defaultClasses := fun c hc => hknown c ((hsame c).mpr hc)
  have hiff : ∀ c n, firstMatch (Lexer.ofClasses classes).classes cs = .ok (some (c, n)) ↔
      firstMatch (Lexer.ofClasses classes').classes cs = .ok (some (c, n)) := by
    intro c n
    rw [firstMatch_ofClasses_iff hknown, firstMatch_ofClasses_iff hknown']
    simp only [hsame]
  rcases firstMatch_cases (solid_ofClasses hknown) with h | ⟨c, n, h, -⟩
  · rcases firstMatch_cases (solid_ofClasses hknown') with h' | ⟨c, n, h', -⟩
    · rw [h, h']
    · rw [h', (hiff c n).mpr h']
  · rw [h, (hiff c n).mp h]

end

/-! ## Scans -/

/-- A scan depends on what is found only. -/
theorem scanFrom_congr {classes classes' : List TokenClass}
    (h : ∀ cs, firstMatch classes cs = firstMatch classes' cs) : ∀ (skip place : Nat)
      (cs : List Char), scanFrom classes skip place cs = scanFrom classes' skip place cs
  | skip, place, [] => by rw [scanFrom, scanFrom]
  | skip + 1, place, c :: cs => by
    rw [scanFrom, scanFrom]
    exact scanFrom_congr h skip (place + 1) cs
  | 0, place, c :: cs => by
    simp only [scanFrom, h, scanFrom_congr h _ (place + 1) cs]

/-- **The order of the token classes does not matter**, nor how often one is given. Two lists of
classes of the language with the same members make lexers that scan every text alike: into the same
pieces in the same places, up to the end of the text or to the same error. -/
theorem scan_eq_of_mem_iff {classes classes' : List TokenClass}
    (hknown : ∀ c ∈ classes, c ∈ defaultClasses) (hsame : ∀ c, c ∈ classes ↔ c ∈ classes') :
    ∃ lexer lexer', Lexer.ofCandidates (classes.map .tokenClass) = .ok lexer ∧
      Lexer.ofCandidates (classes'.map .tokenClass) = .ok lexer' ∧
        ∀ text, lexer.scan text = lexer'.scan text := by
  have hknown' : ∀ c ∈ classes', c ∈ defaultClasses := fun c hc => hknown c ((hsame c).mpr hc)
  have hlexer := Lexer.ofCandidates_eq_ok_iff.mpr
    ⟨fun c hc => role_ne_unbound_of_mem (hknown c hc), rfl⟩
  have hlexer' := Lexer.ofCandidates_eq_ok_iff.mpr
    ⟨fun c hc => role_ne_unbound_of_mem (hknown' c hc), rfl⟩
  refine ⟨_, _, hlexer, hlexer', fun text => ?_⟩
  exact scanFrom_congr (firstMatch_ofClasses_congr hknown hsame) 0 0 text.toList

/-- The collections in another order, and with a class given again. -/
theorem scan_eq_of_mem_iff_collections :
    let classes := variableName :: Collection.join [.extended, .core, .base]
    (∀ c ∈ classes, c ∈ defaultClasses) ∧ (∀ c, c ∈ classes ↔ c ∈ defaultClasses) ∧
    ∃ lexer lexer', Lexer.ofCandidates (classes.map .tokenClass) = .ok lexer ∧
      Lexer.ofCandidates (defaultClasses.map .tokenClass) = .ok lexer' ∧
        lexer.scan "XORY XOR AND ?" = lexer'.scan "XORY XOR AND ?" := by
  intro classes
  have hknown : ∀ c ∈ classes, c ∈ defaultClasses := by decide
  have hall : ∀ c ∈ defaultClasses, c ∈ classes := by decide
  have hsame : ∀ c, c ∈ classes ↔ c ∈ defaultClasses := fun c => ⟨hknown c, hall c⟩
  obtain ⟨lexer, lexer', h, h', hscan⟩ := scan_eq_of_mem_iff hknown hsame
  exact ⟨hknown, hsame, lexer, lexer', h, h', hscan _⟩

end Propositional
