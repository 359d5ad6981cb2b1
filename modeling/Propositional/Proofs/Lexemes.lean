import Propositional.Token.Lexer

/-!
# Pieces of text

* `length_le_of_fittingSpelling?` — an operator is read by its longest spelling that fits.
* `spellingFits_append_iff` — in front of a whole word, the only word spelling that fits is the word.
* `firstMatch_of_unique`, `exists_of_firstMatch` — which class of a language has a token at a place.
* `scanFrom_of_firstMatch` — a scan goes on behind the piece that was found.
* `IsName` — what an identifier is; `lexeme?_name` finds it.
-/

namespace Propositional

/-! ## Spellings -/

theorem mem_insertByLength {s t : String} : ∀ {ts : List String},
    t ∈ insertByLength s ts ↔ t = s ∨ t ∈ ts
  | [] => by simp [insertByLength]
  | u :: ts => by
    unfold insertByLength
    split
    · rw [List.mem_cons, mem_insertByLength, List.mem_cons]
      exact or_left_comm
    · rw [List.mem_cons]

theorem mem_longestFirst {t : String} : ∀ {ss : List String}, t ∈ longestFirst ss ↔ t ∈ ss
  | [] => Iff.rfl
  | s :: ss => by
    have ih : t ∈ longestFirst ss ↔ t ∈ ss := mem_longestFirst
    unfold longestFirst at *
    rw [List.foldr_cons, mem_insertByLength, ih, List.mem_cons]

theorem fittingSpelling?_eq_none {ss : List String} {cs : List Char} :
    fittingSpelling? ss cs = none ↔ ∀ s ∈ ss, spellingFits s cs = false := by
  simp [fittingSpelling?, mem_longestFirst]

theorem exists_of_fittingSpelling? {ss : List String} {cs : List Char} {s : String}
    (h : fittingSpelling? ss cs = some s) : s ∈ ss ∧ spellingFits s cs = true := by
  unfold fittingSpelling? at h
  have hfits := List.find?_some h
  exact ⟨mem_longestFirst.mp (List.mem_of_find?_eq_some h), hfits⟩

theorem prefix_of_spellingFits {s : String} {cs : List Char} (h : spellingFits s cs = true) :
    s.toList <+: cs := by
  simp only [spellingFits, Bool.and_eq_true, List.isPrefixOf_iff_prefix] at h
  exact h.1

/-- A spelling that is no word fits whatever follows it. -/
theorem spellingFits_of_isPrefix {s : String} {cs : List Char} (hs : isAlphanumericWord s = false)
    (h : s.toList <+: cs) : spellingFits s cs = true := by
  simp only [spellingFits, hs, Bool.false_and, Bool.not_false, Bool.and_true,
    List.isPrefixOf_iff_prefix]
  exact h

/-- The first text is not shorter than the second. -/
def NotShorter (s t : String) : Prop := t.length ≤ s.length

theorem pairwise_insertByLength (s : String) : ∀ {ts : List String},
    ts.Pairwise NotShorter → (insertByLength s ts).Pairwise NotShorter
  | [], _ => List.pairwise_singleton NotShorter s
  | t :: ts, h => by
    obtain ⟨ht, hts⟩ := List.pairwise_cons.mp h
    unfold insertByLength
    split
    · rename_i hlt
      refine List.pairwise_cons.mpr ⟨fun u hu => ?_, pairwise_insertByLength s hts⟩
      rcases mem_insertByLength.mp hu with rfl | hu
      · exact Nat.le_of_lt hlt
      · exact ht u hu
    · rename_i hle
      refine List.pairwise_cons.mpr ⟨fun u hu => ?_, h⟩
      rcases List.mem_cons.mp hu with rfl | hu
      · exact Nat.le_of_not_lt hle
      · exact Nat.le_trans (ht u hu) (Nat.le_of_not_lt hle)

/-- Longer spellings come first. -/
theorem pairwise_longestFirst : ∀ ss : List String, (longestFirst ss).Pairwise NotShorter
  | [] => List.Pairwise.nil
  | s :: ss => pairwise_insertByLength s (pairwise_longestFirst ss)

/-- **The spelling that is found is the longest one that fits.** -/
theorem length_le_of_fittingSpelling? {ss : List String} {cs : List Char} {s t : String}
    (h : fittingSpelling? ss cs = some s) (ht : t ∈ ss) (hfits : spellingFits t cs = true) :
    t.length ≤ s.length := by
  obtain ⟨-, before, after, hlist, hbefore⟩ := List.find?_eq_some_iff_append.mp h
  have hsorted := pairwise_longestFirst ss
  rw [hlist, List.pairwise_append] at hsorted
  have hmem : t ∈ before ++ s :: after := hlist ▸ mem_longestFirst.mpr ht
  rcases List.mem_append.mp hmem with hin | hin
  · have hnot := hbefore t hin
    rw [hfits] at hnot
    cases hnot
  · rcases List.mem_cons.mp hin with rfl | hin
    · exact Nat.le_refl _
    · exact (List.pairwise_cons.mp hsorted.2.1).1 t hin

/-- The code points of letters and digits lie between those of the digits and the end of the first
128. -/
theorem toNat_of_isWordChar {c : Char} (h : isWordChar c = true) : 48 ≤ c.toNat ∧ c.toNat < 0x80 := by
  simp only [isWordChar, isLetter, Bool.or_eq_true, Bool.and_eq_true, decide_eq_true_eq,
    Char.le_def, UInt32.le_iff_toNat_le] at h
  have ha : ('a' : Char).val.toNat = 97 := rfl
  have hz : ('z' : Char).val.toNat = 122 := rfl
  have hA : ('A' : Char).val.toNat = 65 := rfl
  have hZ : ('Z' : Char).val.toNat = 90 := rfl
  have h0 : ('0' : Char).val.toNat = 48 := rfl
  have h9 : ('9' : Char).val.toNat = 57 := rfl
  simp only [Char.toNat]
  omega

theorem isAlphanumeric_of_isWordChar {c : Char} (h : isWordChar c = true) :
    isAlphanumeric c = true := by
  have hlt := (toNat_of_isWordChar h).2
  simp [isAlphanumeric, hlt, h]

theorem isBlank_of_isWordChar {c : Char} (h : isWordChar c = true) : isBlank c = false := by
  have hbounds := toNat_of_isWordChar h
  rw [← Bool.not_eq_true]
  intro hblank
  simp only [isBlank, Bool.or_eq_true, Bool.and_eq_true, decide_eq_true_eq, beq_iff_eq] at hblank
  omega

theorem isAlphanumericWord_of_isWordChar {s : String} (hne : s.toList ≠ [])
    (hs : ∀ c ∈ s.toList, isWordChar c = true) : isAlphanumericWord s = true := by
  simp only [isAlphanumericWord, Bool.and_eq_true, Bool.not_eq_true', List.isEmpty_eq_false_iff,
    List.all_eq_true]
  exact ⟨hne, fun c hc => isAlphanumeric_of_isWordChar (hs c hc)⟩

/-! ## Ends of runs -/

/-- No letter or digit begins the text. -/
def EndsWord (rest : List Char) : Prop := ∀ c ∈ rest.head?, isWordChar c = false

/-- No blank begins the text. -/
def EndsBlanks (rest : List Char) : Prop := ∀ c ∈ rest.head?, isBlank c = false

theorem EndsWord.nil : EndsWord [] := by simp [EndsWord]

theorem EndsWord.cons {c : Char} (rest : List Char) (h : isWordChar c = false) :
    EndsWord (c :: rest) := by
  simpa [EndsWord] using h

theorem EndsBlanks.cons {c : Char} (rest : List Char) (h : isBlank c = false) :
    EndsBlanks (c :: rest) := by
  simpa [EndsBlanks] using h

/-- A run of characters stops where none of them begins the rest. -/
theorem takeWhile_append_of_head? {p : Char → Bool} {cs rest : List Char}
    (hall : ∀ c ∈ cs, p c = true) (hrest : ∀ c ∈ rest.head?, p c = false) :
    (cs ++ rest).takeWhile p = cs := by
  rw [List.takeWhile_append_of_pos hall]
  cases rest with
  | nil => simp
  | cons c rest => simp [hrest c rfl]

/-- A word fits in front of the end of a word exactly if it is that word. -/
theorem spellingFits_append_iff {s : String} {cs rest : List Char} (hne : s.toList ≠ [])
    (hs : ∀ c ∈ s.toList, isWordChar c = true) (hcs : ∀ c ∈ cs, isWordChar c = true)
    (hrest : EndsWord rest) : spellingFits s (cs ++ rest) = true ↔ s.toList = cs := by
  have hword : isAlphanumericWord s = true := isAlphanumericWord_of_isWordChar hne hs
  have hlen : s.length = s.toList.length := (String.length_toList).symm
  simp only [spellingFits, hword, Bool.true_and, Bool.and_eq_true, Bool.not_eq_true',
    List.isPrefixOf_iff_prefix, hlen]
  constructor
  · rintro ⟨⟨more, hmore⟩, hnext⟩
    rcases List.append_eq_append_iff.mp hmore with ⟨as, rfl, -⟩ | ⟨bs, hbs, rfl⟩
    · cases as with
      | nil => simp
      | cons a as =>
        -- the word goes on behind the spelling
        rw [List.append_assoc, List.drop_left] at hnext
        have := hcs a (by simp)
        simp [this] at hnext
    · cases bs with
      | nil => simpa using hbs
      | cons b bs =>
        -- the spelling goes on behind the word
        have h₁ := hs b (by simp [hbs])
        have h₂ := hrest b rfl
        rw [h₁] at h₂
        cases h₂
  · rintro rfl
    refine ⟨List.prefix_append _ _, ?_⟩
    rw [List.drop_left]
    cases rest with
    | nil => rfl
    | cons c rest => simpa using hrest c rfl

/-! ## The class of a piece -/

theorem firstMatch_append (classes more : List TokenClass) (cs : List Char) :
    firstMatch (classes ++ more) cs = match firstMatch classes cs with
      | .ok none => firstMatch more cs
      | found => found := by
  induction classes with
  | nil => rfl
  | cons c classes ih =>
    simp only [List.cons_append, firstMatch]
    cases h : c.lexeme? cs with
    | error e => rfl
    | ok found =>
      cases found with
      | none => exact ih
      | some n => rfl

theorem firstMatch_eq_none {cs : List Char} : ∀ {classes : List TokenClass},
    firstMatch classes cs = .ok none ↔ ∀ c ∈ classes, c.lexeme? cs = .ok none
  | [] => by simp [firstMatch]
  | c :: classes => by
    unfold firstMatch
    rw [List.forall_mem_cons, ← firstMatch_eq_none]
    cases h : c.lexeme? cs with
    | error e => simp
    | ok found => cases found <;> simp

/-- A class that alone has a token at a place is found there. -/
theorem firstMatch_of_unique {c : TokenClass} {cs : List Char} {n : Nat}
    (hc : c.lexeme? cs = .ok (some n)) : ∀ {classes : List TokenClass}, c ∈ classes →
      (∀ d ∈ classes, d ≠ c → d.lexeme? cs = .ok none) →
      firstMatch classes cs = .ok (some (c, n))
  | [], hmem, _ => by simp at hmem
  | d :: classes, hmem, hothers => by
    unfold firstMatch
    by_cases hd : d = c
    · rw [hd, hc]
    · rw [hothers d (by simp) hd]
      have hmem' : c ∈ classes := (List.mem_cons.mp hmem).resolve_left (Ne.symm hd)
      exact firstMatch_of_unique hc hmem' fun d' h => hothers d' (List.mem_cons_of_mem d h)

/-- The class that is found has a token at the place, and the classes before it have none. -/
theorem exists_of_firstMatch {c : TokenClass} {cs : List Char} {n : Nat} :
    ∀ {classes : List TokenClass}, firstMatch classes cs = .ok (some (c, n)) →
      c.lexeme? cs = .ok (some n) ∧
        ∃ before after, classes = before ++ c :: after ∧ ∀ d ∈ before, d.lexeme? cs = .ok none
  | [], h => by cases h
  | d :: classes, h => by
    unfold firstMatch at h
    split at h
    · cases h
    · rename_i hd
      cases h
      exact ⟨hd, [], classes, rfl, by simp⟩
    · rename_i hd
      obtain ⟨hc, before, after, rfl, hbefore⟩ := exists_of_firstMatch h
      refine ⟨hc, d :: before, after, rfl, fun d' h => ?_⟩
      rcases List.mem_cons.mp h with rfl | h
      · exact hd
      · exact hbefore d' h

/-! ## Scanning on -/

theorem scanFrom_skip (classes : List TokenClass) : ∀ (skip place : Nat) (cs : List Char),
    skip ≤ cs.length → scanFrom classes skip place cs = scanFrom classes 0 (place + skip) (cs.drop skip)
  | 0, place, cs, _ => rfl
  | skip + 1, place, [], h => by simp at h
  | skip + 1, place, c :: cs, h => by
    rw [scanFrom, scanFrom_skip classes skip (place + 1) cs (by simpa using h), List.drop_succ_cons,
      show place + 1 + skip = place + (skip + 1) by omega]

/-- The first characters of a text as a token at a place. -/
def pieceAt (c : TokenClass) (place : Nat) (cs : List Char) (n : Nat) : Token :=
  ⟨c, String.ofList (cs.take n), place, place + n⟩

/-- **A scan takes the piece that is found and goes on behind it.** -/
theorem scanFrom_of_firstMatch {classes : List TokenClass} {c : TokenClass} {cs : List Char}
    {n : Nat} (place : Nat) (h : firstMatch classes cs = .ok (some (c, n))) (hpos : 0 < n)
    (hlen : n ≤ cs.length) :
    scanFrom classes 0 place cs =
      (scanFrom classes 0 (place + n) (cs.drop n)).cons (pieceAt c place cs n) := by
  cases cs with
  | nil => simp at hlen; omega
  | cons a cs =>
    have hn : n ≠ 0 := by omega
    obtain ⟨m, rfl⟩ : ∃ m, n = m + 1 := ⟨n - 1, by omega⟩
    simp only [scanFrom, h, hn, if_false]
    rw [Nat.add_sub_cancel, scanFrom_skip classes m (place + 1) cs (by simpa using hlen)]
    rw [List.drop_succ_cons, show place + 1 + m = place + (m + 1) by omega]
    rfl

/-! ## Names -/

/-- A letter, and letters and digits behind it. -/
def IsName (s : String) : Prop :=
  ∃ c cs, s.toList = c :: cs ∧ isLetter c = true ∧ ∀ d ∈ cs, isWordChar d = true

theorem IsName.isWordChar {s : String} (h : IsName s) : ∀ c ∈ s.toList, isWordChar c = true := by
  obtain ⟨c, cs, hs, hc, hcs⟩ := h
  rw [hs]
  intro d hd
  rcases List.mem_cons.mp hd with rfl | hd
  · exact isWordChar_of_isLetter hc
  · exact hcs d hd

theorem IsName.toList_ne_nil {s : String} (h : IsName s) : s.toList ≠ [] := by
  obtain ⟨c, cs, hs, -⟩ := h
  rw [hs]
  exact List.cons_ne_nil c cs

theorem lexeme?_name {s : String} {rest : List Char} (h : IsName s) (hrest : EndsWord rest) :
    TokenClass.variableName.lexeme? (s.toList ++ rest) = .ok (some s.length) := by
  obtain ⟨c, cs, hs, hc, hcs⟩ := h
  have hlen : s.length = cs.length + 1 := by rw [← String.length_toList, hs, List.length_cons]
  rw [hs, List.cons_append]
  simp only [TokenClass.lexeme?, TokenClass.variableName_pattern, Pattern.lexeme?, hc, if_true,
    takeWhile_append_of_head? hcs hrest, hlen, Nat.add_comm]

/-- What is found as an identifier is a name, and it is the whole of its word. -/
theorem exists_of_lexeme?_name {cs : List Char} {n : Nat}
    (h : TokenClass.variableName.lexeme? cs = .ok (some n)) :
    IsName (String.ofList (cs.take n)) ∧
      ∃ rest, cs = (String.ofList (cs.take n)).toList ++ rest ∧ EndsWord rest := by
  cases cs with
  | nil => cases h
  | cons c cs =>
    simp only [TokenClass.lexeme?, TokenClass.variableName_pattern, Pattern.lexeme?,
      Except.ok.injEq] at h
    split at h
    · rename_i hc
      cases h
      have htake : (c :: cs).take (1 + (cs.takeWhile isWordChar).length) =
          c :: cs.takeWhile isWordChar := by
        rw [Nat.add_comm, List.take_succ_cons,
          List.prefix_iff_eq_take.mp (List.takeWhile_prefix isWordChar (l := cs))]
        simp
      rw [htake]
      refine ⟨⟨c, _, String.toList_ofList, hc, fun d hd => ?_⟩, cs.dropWhile isWordChar, ?_, ?_⟩
      · exact List.all_eq_true.mp List.all_takeWhile d hd
      · rw [String.toList_ofList, List.cons_append, List.takeWhile_append_dropWhile]
      · intro d hd
        have := List.head?_dropWhile_not isWordChar cs
        rw [Option.mem_def] at hd
        simpa [hd] using this
    · cases h

end Propositional
