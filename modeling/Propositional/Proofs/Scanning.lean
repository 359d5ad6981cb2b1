import Propositional.Proofs.Lexemes

/-!
# Scans, piece by piece

A pattern is solid if it stands for some pieces of text and none of them is empty. Over solid
classes a scan takes one piece after the other, and ends behind the last character or where no class
has a token.

* `Lexer.ofCandidates_eq_ok_iff` — which classes a lexer can be made of.
* `Pattern.Solid.lexeme?_cases` — a solid pattern finds nothing, or a piece of the text.
* `Scans` — the pieces of a text as a relation, which `scanFrom` decides (`scans_scanFrom`).
* `Scans.lexemes_eq` — where the pieces of a scan come from, and how it ends.
-/

namespace Propositional

/-! ## Lexers of any classes -/

theorem Lexer.mem_ofClasses {classes : List TokenClass} {c : TokenClass} :
    c ∈ (ofClasses classes).classes ↔ c ∈ classes := by
  simp only [ofClasses, List.mem_append, List.mem_filter, ← and_or_left]
  exact and_iff_left (by cases c.isIdentifier <;> simp)

theorem Lexer.mapM_check_eq_ok_iff : ∀ {classes checked : List TokenClass},
    (classes.map Candidate.tokenClass).mapM check = .ok checked ↔
      (∀ c ∈ classes, c.role ≠ .unbound) ∧ checked = classes
  | [], checked => by
    rw [List.map_nil, List.mapM_nil]
    show Except.ok [] = _ ↔ _
    simp [eq_comm]
  | c :: classes, checked => by
    rw [List.map_cons, List.mapM_cons, check, List.forall_mem_cons]
    by_cases hc : c.role = .unbound
    · rw [if_pos hc]
      exact iff_of_false nofun fun h => h.1.1 hc
    · rw [if_neg hc]
      cases hrest : (classes.map Candidate.tokenClass).mapM check with
      | error e =>
        refine iff_of_false nofun fun h => ?_
        have hok := mapM_check_eq_ok_iff.mpr ⟨h.1.2, rfl⟩
        rw [hrest] at hok
        cases hok
      | ok rest =>
        obtain ⟨hclasses, rfl⟩ := mapM_check_eq_ok_iff.mp hrest
        show Except.ok (c :: rest) = _ ↔ _
        rw [Except.ok.injEq, eq_comm]
        exact ⟨fun h => ⟨⟨hc, hclasses⟩, h⟩, fun h => h.2⟩

/-- **Classes make a lexer if every operator among them has a meaning**, and the lexer holds them,
with those of identifiers behind the others. -/
theorem Lexer.ofCandidates_eq_ok_iff {classes : List TokenClass} {lexer : Lexer} :
    ofCandidates (classes.map .tokenClass) = .ok lexer ↔
      (∀ c ∈ classes, c.role ≠ .unbound) ∧ lexer = ofClasses classes := by
  unfold ofCandidates
  cases hchecked : (classes.map Candidate.tokenClass).mapM check with
  | error e =>
    refine iff_of_false nofun fun h => ?_
    have hok := mapM_check_eq_ok_iff.mpr ⟨h.1, rfl⟩
    rw [hchecked] at hok
    cases hok
  | ok checked =>
    obtain ⟨hclasses, rfl⟩ := mapM_check_eq_ok_iff.mp hchecked
    show Except.ok (ofClasses checked) = _ ↔ _
    rw [Except.ok.injEq, eq_comm]
    exact ⟨fun h => ⟨hclasses, h⟩, fun h => h.2⟩

/-! ## Solid patterns -/

/-- Some pieces of text have been fixed, and no piece is empty. -/
def Pattern.Solid : Pattern → Prop
  | .blanks | .identifier => True
  | .text t => t ≠ ""
  | .spellings ss => ss ≠ [] ∧ "" ∉ ss
  | .undefined => False

theorem length_pos_of_ne_empty {s : String} (h : s ≠ "") : 0 < s.length := by
  rw [← String.length_toList, List.length_pos_iff]
  exact fun hnil => h (String.toList_eq_nil_iff.mp hnil)

theorem length_le_of_isPrefixOf {s : String} {cs : List Char}
    (h : s.toList.isPrefixOf cs = true) : s.length ≤ cs.length := by
  rw [← String.length_toList]
  exact (List.isPrefixOf_iff_prefix.mp h).length_le

/-- A solid pattern finds nothing at the beginning of a text, or a piece of it. -/
theorem Pattern.Solid.lexeme?_cases {p : Pattern} (h : p.Solid) (cs : List Char) :
    p.lexeme? cs = .ok none ∨ ∃ n, p.lexeme? cs = .ok (some n) ∧ 0 < n ∧ n ≤ cs.length := by
  cases p with
  | blanks =>
    simp only [lexeme?]
    split
    · exact .inl rfl
    · rename_i hne
      rw [List.isEmpty_iff, ← ne_eq, ← List.length_pos_iff] at hne
      exact .inr ⟨_, rfl, hne, (List.takeWhile_prefix _).length_le⟩
  | identifier =>
    cases cs with
    | nil => exact .inl rfl
    | cons c cs =>
      simp only [lexeme?]
      split
      · refine .inr ⟨_, rfl, by omega, ?_⟩
        have : (cs.takeWhile isWordChar).length ≤ cs.length := (List.takeWhile_prefix _).length_le
        rw [List.length_cons]
        omega
      · exact .inl rfl
  | text t =>
    have hne : t.isEmpty = false := by simpa [Pattern.Solid] using h
    simp only [lexeme?, hne, Bool.false_eq_true, if_false]
    split
    · rename_i hpre
      exact .inr ⟨_, rfl, length_pos_of_ne_empty h, length_le_of_isPrefixOf hpre⟩
    · exact .inl rfl
  | spellings ss =>
    obtain ⟨hne, hempty⟩ := h
    have hfixed : (ss.isEmpty || decide (ss = [""])) = false := by
      simp only [Bool.or_eq_false_iff, List.isEmpty_eq_false_iff, decide_eq_false_iff_not]
      exact ⟨hne, fun heq => hempty (by simp [heq])⟩
    simp only [lexeme?, hfixed, Bool.false_eq_true, if_false]
    cases hs : fittingSpelling? ss cs with
    | none => exact .inl rfl
    | some s =>
      obtain ⟨hmem, hfits⟩ := exists_of_fittingSpelling? hs
      simp only [spellingFits, Bool.and_eq_true] at hfits
      refine .inr ⟨_, rfl, length_pos_of_ne_empty ?_, length_le_of_isPrefixOf hfits.1⟩
      rintro rfl
      exact hempty hmem
  | undefined => exact absurd h id

/-- Over solid classes a place has no token, or one that is a piece of the text. -/
theorem firstMatch_cases {cs : List Char} : ∀ {classes : List TokenClass},
    (∀ c ∈ classes, c.pattern.Solid) → firstMatch classes cs = .ok none ∨
      ∃ c n, firstMatch classes cs = .ok (some (c, n)) ∧ 0 < n ∧ n ≤ cs.length
  | [], _ => .inl rfl
  | c :: classes, h => by
    rcases (h c (by simp)).lexeme?_cases cs with hc | ⟨n, hc, hpos, hlen⟩
    · simp only [firstMatch, TokenClass.lexeme?, hc]
      exact firstMatch_cases fun d hd => h d (List.mem_cons_of_mem c hd)
    · refine .inr ⟨c, n, ?_, hpos, hlen⟩
      simp only [firstMatch, TokenClass.lexeme?, hc]

/-! ## Scans -/

/-- The pieces of a text from a place on. -/
inductive Scans (classes : List TokenClass) : Nat → List Char → Scan → Prop where
  | finished (place : Nat) : Scans classes place [] ⟨[endToken place], .complete⟩
  | piece {place n : Nat} {cs : List Char} {c : TokenClass} {s : Scan}
    (h : firstMatch classes cs = .ok (some (c, n))) (hpos : 0 < n) (hlen : n ≤ cs.length)
    (hs : Scans classes (place + n) (cs.drop n) s) :
    Scans classes place cs (s.cons (pieceAt c place cs n))
  | stuck {place : Nat} {c : Char} {cs : List Char} (h : firstMatch classes (c :: cs) = .ok none) :
    Scans classes place (c :: cs) ⟨[], .failed (.unrecognized c place)⟩

/-- **Over solid classes a text is scanned piece by piece.** By induction on its length. -/
theorem scans_scanFrom {classes : List TokenClass} (hsolid : ∀ c ∈ classes, c.pattern.Solid)
    (place : Nat) (cs : List Char) : Scans classes place cs (scanFrom classes 0 place cs) := by
  cases cs with
  | nil =>
    rw [scanFrom]
    exact .finished place
  | cons c cs =>
    have hcases := @firstMatch_cases (c :: cs) classes hsolid
    rcases hcases with h | ⟨d, n, h, hpos, hlen⟩
    · simp only [scanFrom, h]
      exact .stuck h
    · rw [scanFrom_of_firstMatch place h hpos hlen]
      exact .piece h hpos hlen (scans_scanFrom hsolid (place + n) ((c :: cs).drop n))
termination_by cs.length
decreasing_by
  rw [List.length_drop]
  omega

/-- The token is what some class of the language has at the beginning of some text. -/
def Found (classes : List TokenClass) (t : Token) : Prop :=
  ∃ cs n, firstMatch classes cs = .ok (some (t.cls, n)) ∧ t.value = String.ofList (cs.take n)

theorem Found.cls_mem {classes : List TokenClass} {t : Token} (h : Found classes t) :
    t.cls ∈ classes := by
  obtain ⟨cs, n, hmatch, -⟩ := h
  obtain ⟨-, before, after, heq, -⟩ := exists_of_firstMatch hmatch
  rw [heq]
  simp

/-- **The pieces of a scan are found in the text.** After them comes the closing token, or the scan
has failed at a character that begins no token. -/
theorem Scans.lexemes_eq {classes : List TokenClass} {place : Nat} {cs : List Char} {s : Scan}
    (h : Scans classes place cs s) : ∃ ts, (∀ t ∈ ts, Found classes t) ∧
      (s = ⟨ts ++ [endToken (place + cs.length)], .complete⟩ ∨
        ∃ c p, s = ⟨ts, .failed (.unrecognized c p)⟩) := by
  induction h with
  | finished place => exact ⟨[], by simp, .inl rfl⟩
  | @piece place n cs c s h hpos hlen hs ih =>
    obtain ⟨ts, hts, hend⟩ := ih
    refine ⟨pieceAt c place cs n :: ts, fun t ht => ?_, ?_⟩
    · rcases List.mem_cons.mp ht with rfl | ht
      · exact ⟨cs, n, h, rfl⟩
      · exact hts t ht
    · rcases hend with rfl | ⟨d, p, rfl⟩
      · left
        rw [List.length_drop, show place + n + (cs.length - n) = place + cs.length by omega]
        rfl
      · exact .inr ⟨d, p, rfl⟩
  | @stuck place c cs h => exact ⟨[], by simp, .inr ⟨c, place, rfl⟩⟩

end Propositional
