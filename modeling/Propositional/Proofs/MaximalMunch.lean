import Propositional.Proofs.Printing

/-!
# First match is maximal munch

A lexer tries its classes in a fixed order and takes the first that has a token. No class knows how
long the tokens of the others are. In the language it comes to the same as comparing all lexemes
that begin the rest of a text: the longest one is taken, and a word that is both an operator and a
name is an operator.

* `Lexeme` — the spellings, parentheses and names that begin a text, each with its class.
* `Longest` — a lexeme that no other one in the language outdoes.
* `MaximalMunch` — scanning by runs of blanks and longest lexemes.
* `spelling_of_isPrefix` — how two spellings of the language can overlap.
* `longest_of_firstMatch`, `firstMatch_of_longest` — what is found is the longest lexeme.
* `scan_iff_maximalMunch` — the scan of a text is its scan by maximal munch.
-/

namespace Propositional

open TokenClass

/-! ## Scanning by the longest lexeme -/

/-- The classes of the parentheses, each with its character. -/
inductive IsParenthesis : TokenClass → Char → Prop where
  | opening : IsParenthesis openParenthesis '('
  | closing : IsParenthesis closeParenthesis ')'

/-- A text that falls into a lexeme of a class and a rest. An operator has its spellings, whatever
follows them; a name goes on as far as letters and digits do. -/
inductive Lexeme : TokenClass → List Char → List Char → Prop where
  | spelling {c : TokenClass} {s : String} (h : s ∈ c.spellings) (rest : List Char) :
    Lexeme c s.toList rest
  | parenthesis {c : TokenClass} {a : Char} (h : IsParenthesis c a) (rest : List Char) :
    Lexeme c [a] rest
  | name {s : String} {rest : List Char} (h : IsName s) (hrest : EndsWord rest) :
    Lexeme variableName s.toList rest

/-- The lexeme is the longest of those that begin the same text. If there is another class with a
lexeme of this length, it is that of names, and the lexeme is an operator. -/
structure Longest (classes : List TokenClass) (c : TokenClass) (lexeme rest : List Char) : Prop where
  mem : c ∈ classes
  isLexeme : Lexeme c lexeme rest
  outdoes : ∀ d ∈ classes, ∀ {other rest'}, Lexeme d other rest' → other ++ rest' = lexeme ++ rest →
    other.length < lexeme.length ∨ (other.length = lexeme.length ∧
      (d = c ∨ (d.role = .identifier ∧ ∃ op, c.role = .operator op)))

/-- The tokens of a text from a place on, and how they end. Blanks are skipped as far as they go;
where no blank is, the longest lexeme is taken; where no lexeme begins, the scan fails. -/
inductive MaximalMunch (classes : List TokenClass) :
    Nat → List Char → List Token → Scan.Ending → Prop where
  | finished (place : Nat) : MaximalMunch classes place [] [endToken place] .complete
  | blanks {place : Nat} {run rest : List Char} {ts : List Token} {e : Scan.Ending}
    (hne : run ≠ []) (hrun : ∀ a ∈ run, isBlank a = true) (hrest : EndsBlanks rest)
    (h : MaximalMunch classes (place + run.length) rest ts e) :
    MaximalMunch classes place (run ++ rest) ts e
  | token {place : Nat} {c : TokenClass} {lexeme rest : List Char} {ts : List Token}
    {e : Scan.Ending} (hblank : EndsBlanks (lexeme ++ rest)) (hl : Longest classes c lexeme rest)
    (h : MaximalMunch classes (place + lexeme.length) rest ts e) :
    MaximalMunch classes place (lexeme ++ rest)
      (⟨c, String.ofList lexeme, place, place + lexeme.length⟩ :: ts) e
  | stuck {place : Nat} {a : Char} {cs : List Char} (hblank : isBlank a = false)
    (hnone : ∀ d ∈ classes, ∀ {lexeme rest}, Lexeme d lexeme rest → lexeme ++ rest ≠ a :: cs) :
    MaximalMunch classes place (a :: cs) [] (.failed (.unrecognized a place))

/-- Two lexemes that are each the longest of the same text have the same class and length. -/
theorem Longest.unique {classes : List TokenClass} {c c' : TokenClass}
    {lexeme rest lexeme' rest' : List Char} (h : Longest classes c lexeme rest)
    (h' : Longest classes c' lexeme' rest') (heq : lexeme ++ rest = lexeme' ++ rest') :
    c = c' ∧ lexeme.length = lexeme'.length := by
  have hother := h.outdoes c' h'.mem h'.isLexeme heq.symm
  have hsame := h'.outdoes c h.mem h.isLexeme heq
  have hlen : lexeme.length = lexeme'.length := by omega
  refine ⟨?_, hlen⟩
  rcases hother with hlt | ⟨-, rfl | ⟨hname, -⟩⟩
  · omega
  · rfl
  · rcases hsame with hlt | ⟨-, rfl | ⟨-, op, hop⟩⟩
    · omega
    · rfl
    · rw [hname] at hop
      cases hop

/-! ## Lexemes of the language -/

/-- **If one spelling begins another, they belong to the same connective**, and they are the same or
both symbols. -/
theorem spelling_of_isPrefix (j k : Connective) : ∀ s ∈ j.tokenClass.spellings,
    ∀ t ∈ k.tokenClass.spellings, s.toList <+: t.toList →
      j = k ∧ (s = t ∨ isAlphanumericWord t = false) := by
  cases j <;> cases k <;> decide +kernel

/-- A spelling in front of a letter is a name. -/
theorem isName_of_spelling {k : Connective} {s : String} (hs : s ∈ k.tokenClass.spellings)
    {a : Char} {cs : List Char} (hp : s.toList <+: a :: cs) (ha : isLetter a = true) : IsName s := by
  rcases spelling_cases k s hs with hname | hsymbol
  · exact hname
  · obtain ⟨rest, hrest⟩ := hp
    obtain ⟨b, bs, heq, hb, -⟩ := hsymbol.exists_head rest
    rw [hrest] at heq
    cases heq
    rw [isWordChar_of_isLetter ha] at hb
    cases hb

/-- Every spelling that begins a text in front of which an operator is found belongs to this
operator, and is not longer than the spelling that is found. -/
theorem length_le_of_spelling {j k : Connective} {s t : String} {cs : List Char}
    (hfound : fittingSpelling? k.tokenClass.spellings cs = some s)
    (ht : t ∈ j.tokenClass.spellings) (hp : t.toList <+: cs) : j = k ∧ t.length ≤ s.length := by
  obtain ⟨hs, hfits⟩ := exists_of_fittingSpelling? hfound
  rcases List.prefix_or_prefix_of_prefix hp (prefix_of_spellingFits hfits) with hts | hst
  · obtain ⟨rfl, -⟩ := spelling_of_isPrefix j k t ht s hs hts
    refine ⟨rfl, ?_⟩
    rw [← String.length_toList, ← String.length_toList]
    exact hts.length_le
  · obtain ⟨rfl, rfl | hsymbol⟩ := spelling_of_isPrefix k j s hs t ht hst
    · exact ⟨rfl, Nat.le_refl _⟩
    · exact ⟨rfl, length_le_of_fittingSpelling? hfound ht (spellingFits_of_isPrefix hsymbol hp)⟩

/-- No lexeme of the language is empty or consists of blanks. -/
theorem Lexeme.isBlank {c : TokenClass} {lexeme rest : List Char} (h : Lexeme c lexeme rest)
    (hc : c ∈ defaultClasses) : c.isBlank = false := by
  cases h with
  | spelling hs rest =>
    obtain ⟨k, rfl⟩ := exists_connective hc hs
    cases k <;> rfl
  | parenthesis ha rest => cases ha <;> rfl
  | name hs hrest => rfl

theorem Lexeme.ne_nil {c : TokenClass} {lexeme rest : List Char} (h : Lexeme c lexeme rest)
    (hc : c ∈ defaultClasses) : lexeme ≠ [] := by
  cases h with
  | @spelling _ s hs rest =>
    obtain ⟨k, rfl⟩ := exists_connective hc hs
    rcases spelling_cases k s hs with hname | hsymbol
    · exact hname.toList_ne_nil
    · exact hsymbol.toList_ne_nil
  | parenthesis ha rest => exact List.cons_ne_nil _ []
  | name hs hrest => exact hs.toList_ne_nil

theorem IsParenthesis.isLetter {c : TokenClass} {a : Char} (h : IsParenthesis c a) :
    isLetter a = false := by
  cases h <;> decide

theorem IsParenthesis.mem_coreClasses {c : TokenClass} {a : Char} (h : IsParenthesis c a) :
    c ∈ coreClasses := by
  cases h <;> decide

/-- A parenthesis has one class. -/
theorem IsParenthesis.unique {c d : TokenClass} {a : Char} (h : IsParenthesis c a)
    (h' : IsParenthesis d a) : c = d := by
  cases h <;> cases h' <;> rfl

/-- No spelling begins with a parenthesis. -/
theorem IsParenthesis.not_isPrefix {c : TokenClass} {a : Char} (h : IsParenthesis c a)
    {k : Connective} {s : String} (hs : s ∈ k.tokenClass.spellings) (cs : List Char) :
    ¬ s.toList <+: a :: cs := by
  intro hp
  have hhead := (spelling_head hs hp).2
  cases h with
  | opening => exact hhead.1 rfl
  | closing => exact hhead.2 rfl

theorem lexeme?_parenthesis {c : TokenClass} {a : Char} (h : IsParenthesis c a)
    (cs : List Char) : c.lexeme? (a :: cs) = .ok (some 1) := by
  cases h <;> rfl

theorem eq_cons_of_lexeme?_parenthesis {c : TokenClass} {a : Char} (h : IsParenthesis c a)
    {cs : List Char} {n : Nat} (hfound : c.lexeme? cs = .ok (some n)) :
    n = 1 ∧ ∃ rest, cs = a :: rest := by
  cases cs with
  | nil => cases h <;> cases hfound
  | cons b cs =>
    cases h <;>
      simp [TokenClass.lexeme?, Pattern.lexeme?] at hfound <;>
      exact ⟨hfound.2.symm, cs, by rw [hfound.1]⟩

/-- In front of a name at least the class of names has a token. -/
theorem IsName.lexeme?_ne_none {s : String} (hs : IsName s) (rest : List Char) :
    variableName.lexeme? (s.toList ++ rest) ≠ .ok none := by
  obtain ⟨a, cs, hcs, ha⟩ := hs.exists_head rest
  rw [hcs]
  simp [TokenClass.lexeme?, Pattern.lexeme?, ha]

theorem lexeme?_whitespace_eq_none {cs : List Char} (h : EndsBlanks cs) :
    whitespace.lexeme? cs = .ok none := by
  have hrun : cs.takeWhile Propositional.isBlank = [] :=
    takeWhile_append_of_head? (List.forall_mem_nil _) h
  simp [TokenClass.lexeme?, Pattern.lexeme?, hrun]

/-- Letters and digits that begin a word and what follows it begin the word. -/
theorem prefix_of_word {cs rest word behind : List Char} (hcs : ∀ a ∈ cs, isWordChar a = true)
    (hbehind : EndsWord behind) (heq : cs ++ rest = word ++ behind) : cs <+: word := by
  rcases List.append_eq_append_iff.mp heq with ⟨as, rfl, -⟩ | ⟨bs, rfl, rfl⟩
  · exact List.prefix_append cs as
  · cases bs with
    | nil => simp
    | cons b bs =>
      have hword := hcs b (by simp)
      have hnot := hbehind b rfl
      rw [hword] at hnot
      cases hnot

/-- A text that begins with a blank begins with a run of blanks. -/
theorem exists_run_of_not_endsBlanks {cs : List Char} (h : ¬ EndsBlanks cs) : ∃ run rest,
    cs = run ++ rest ∧ run ≠ [] ∧ (∀ a ∈ run, isBlank a = true) ∧ EndsBlanks rest := by
  refine ⟨cs.takeWhile isBlank, cs.dropWhile isBlank, List.takeWhile_append_dropWhile.symm,
    fun hnil => h ?_, List.all_eq_true.mp List.all_takeWhile, ?_⟩
  · intro a ha
    obtain ⟨rest, rfl⟩ := List.head?_eq_some_iff.mp ha
    rw [← Bool.not_eq_true]
    intro hblank
    simp [hblank] at hnil
  · intro a ha
    have hnot := List.head?_dropWhile_not isBlank cs
    rw [Option.mem_def] at ha
    simpa [ha] using hnot

/-! ## What is found is the longest lexeme -/

namespace Lexer.Standard

variable {lexer : Lexer} (h : lexer.Standard)

include h

theorem longest_spelling {k : Connective} {s : String} {rest : List Char}
    (hk : k.tokenClass ∈ lexer.classes)
    (hfound : fittingSpelling? k.tokenClass.spellings (s.toList ++ rest) = some s) :
    Longest lexer.classes k.tokenClass s.toList rest := by
  obtain ⟨hs, hfits⟩ := exists_of_fittingSpelling? hfound
  refine ⟨hk, .spelling hs rest, fun d hd other rest' hl heq => ?_⟩
  cases hl with
  | spelling ht rest' =>
    obtain ⟨j, rfl⟩ := exists_connective (h.known d hd) ht
    obtain ⟨rfl, hle⟩ := length_le_of_spelling hfound ht ⟨rest', heq⟩
    rw [String.length_toList, String.length_toList]
    exact (Nat.lt_or_eq_of_le hle).imp_right fun hlen => ⟨hlen, .inl rfl⟩
  | parenthesis ha rest' => exact absurd ⟨rest, heq.symm⟩ (ha.not_isPrefix hs rest')
  | name hm hrest' =>
    -- the name and the spelling are the same word
    obtain ⟨a, cs, hcs, ha⟩ := hm.exists_head rest'
    have hname := isName_of_spelling hs ⟨rest, heq.symm.trans hcs⟩ ha
    rw [← heq, spellingFits_append_iff hname.toList_ne_nil hname.isWordChar hm.isWordChar hrest']
      at hfits
    rw [hfits]
    exact .inr ⟨rfl, .inr ⟨rfl, _, k.tokenClass_role⟩⟩

theorem longest_name {s : String} {rest : List Char} (hs : IsName s) (hrest : EndsWord rest)
    (hnone : ∀ c ∈ lexer.classes, c ≠ variableName → c.lexeme? (s.toList ++ rest) = .ok none) :
    Longest lexer.classes variableName s.toList rest := by
  obtain ⟨a, cs, hcs, ha⟩ := hs.exists_head rest
  refine ⟨h.core _ (by decide), .name hs hrest, fun d hd other rest' hl heq => ?_⟩
  cases hl with
  | @spelling _ t ht rest' =>
    obtain ⟨k, rfl⟩ := exists_connective (h.known d hd) ht
    have ht' := isName_of_spelling ht ⟨rest', heq.trans hcs⟩ ha
    have hbegins := prefix_of_word ht'.isWordChar hrest heq
    refine .inl (Nat.lt_of_le_of_ne hbegins.length_le fun hlen => ?_)
    -- a spelling of the same length would have been found
    have hfits := (spellingFits_append_iff ht'.toList_ne_nil ht'.isWordChar hs.isWordChar hrest).mpr
      (hbegins.eq_of_length hlen)
    have hfound := hnone _ hd (by cases k <;> decide)
    rw [lexeme?_tokenClass, Except.ok.injEq, Option.map_eq_none_iff, fittingSpelling?_eq_none]
      at hfound
    rw [hfound t ht] at hfits
    cases hfits
  | parenthesis hb rest' =>
    obtain ⟨rfl, -⟩ := List.cons.inj (heq.trans hcs)
    rw [hb.isLetter] at ha
    cases ha
  | name hm hrest' =>
    have hms := prefix_of_word hm.isWordChar hrest heq
    have hsm := prefix_of_word hs.isWordChar hrest' heq.symm
    exact .inr ⟨Nat.le_antisymm hms.length_le hsm.length_le, .inl rfl⟩

theorem longest_parenthesis {c : TokenClass} {a : Char} (hc : IsParenthesis c a)
    (rest : List Char) : Longest lexer.classes c [a] rest := by
  refine ⟨h.core c hc.mem_coreClasses, .parenthesis hc rest, fun d hd other rest' hl heq => ?_⟩
  cases hl with
  | spelling ht rest' =>
    obtain ⟨k, rfl⟩ := exists_connective (h.known d hd) ht
    exact absurd ⟨rest', heq⟩ (hc.not_isPrefix ht rest)
  | parenthesis hb rest' =>
    obtain ⟨rfl, -⟩ := List.cons.inj heq
    exact .inr ⟨rfl, .inl (hb.unique hc)⟩
  | name hm hrest' =>
    obtain ⟨b, bs, hbs, hb⟩ := hm.exists_head rest'
    obtain ⟨rfl, -⟩ := List.cons.inj (heq.symm.trans hbs)
    rw [hc.isLetter] at hb
    cases hb

/-- Where a lexeme begins, something is found. -/
theorem firstMatch_ne_none {d : TokenClass} {lexeme rest : List Char} (hd : d ∈ lexer.classes)
    (hl : Lexeme d lexeme rest) : firstMatch lexer.classes (lexeme ++ rest) ≠ .ok none := by
  intro hnone
  rw [firstMatch_eq_none] at hnone
  have hvariable := hnone _ (h.core variableName (by decide))
  have hfound := hnone d hd
  cases hl with
  | @spelling _ s hs rest =>
    obtain ⟨k, rfl⟩ := exists_connective (h.known d hd) hs
    rcases spelling_cases k s hs with hname | hsymbol
    · exact hname.lexeme?_ne_none rest hvariable
    · rw [lexeme?_tokenClass, Except.ok.injEq, Option.map_eq_none_iff, fittingSpelling?_eq_none]
        at hfound
      have hnot := hfound s hs
      rw [spellingFits_of_isPrefix hsymbol.2 (List.prefix_append _ rest)] at hnot
      cases hnot
  | parenthesis ha rest =>
    rw [List.singleton_append, lexeme?_parenthesis ha] at hfound
    cases hfound
  | name hs hrest => exact hs.lexeme?_ne_none rest hvariable

/-- **What is found where no blank is, is the longest lexeme.** -/
theorem longest_of_firstMatch {c : TokenClass} {cs : List Char} {n : Nat} (hblank : EndsBlanks cs)
    (hmatch : firstMatch lexer.classes cs = .ok (some (c, n))) :
    Longest lexer.classes c (cs.take n) (cs.drop n) := by
  obtain ⟨hfound, before, after, hclasses, -⟩ := exists_of_firstMatch hmatch
  have hmem : c ∈ lexer.classes := by
    rw [hclasses]
    exact List.mem_append_right before List.mem_cons_self
  have hparenthesis : ∀ {a}, IsParenthesis c a → Longest lexer.classes c (cs.take n) (cs.drop n) := by
    intro a ha
    obtain ⟨rfl, rest, rfl⟩ := eq_cons_of_lexeme?_parenthesis ha hfound
    exact h.longest_parenthesis ha rest
  rcases mem_defaultClasses.mp (h.known c hmem) with rfl | rfl | rfl | rfl | ⟨k, rfl⟩
  · rw [lexeme?_whitespace_eq_none hblank] at hfound
    cases hfound
  · exact hparenthesis .opening
  · exact hparenthesis .closing
  · obtain ⟨hs, rest, hcs, hrest⟩ := exists_of_lexeme?_name hfound
    have hnone := h.lexeme?_eq_none_of_name hmatch
    have htake : (String.ofList (cs.take n)).toList = cs.take n := String.toList_ofList
    have hcut : cs.take n ++ cs.drop n = cs.take n ++ rest := by
      rw [List.take_append_drop, ← htake]
      exact hcs
    rw [hcs] at hnone
    rw [← htake, List.append_cancel_left hcut]
    exact h.longest_name hs hrest hnone
  · rw [lexeme?_tokenClass, Except.ok.injEq, Option.map_eq_some_iff] at hfound
    obtain ⟨s, hs, rfl⟩ := hfound
    obtain ⟨rest, rfl⟩ := prefix_of_spellingFits (exists_of_fittingSpelling? hs).2
    rw [← String.length_toList, List.take_left, List.drop_left]
    exact h.longest_spelling hmem hs

/-- **The longest lexeme is found.** -/
theorem firstMatch_of_longest {c : TokenClass} {lexeme rest : List Char}
    (hblank : EndsBlanks (lexeme ++ rest)) (hl : Longest lexer.classes c lexeme rest) :
    firstMatch lexer.classes (lexeme ++ rest) = .ok (some (c, lexeme.length)) := by
  have hcases := @firstMatch_cases (lexeme ++ rest) lexer.classes
    fun d hd => solid_of_mem (h.known d hd)
  rcases hcases with hnone | ⟨d, n, hmatch, -, hlen⟩
  · exact absurd hnone (h.firstMatch_ne_none hl.mem hl.isLexeme)
  · have hl' := h.longest_of_firstMatch hblank hmatch
    obtain ⟨rfl, hlength⟩ := hl.unique hl' (List.take_append_drop n (lexeme ++ rest)).symm
    rw [List.length_take_of_le hlen] at hlength
    rw [hmatch, hlength]

/-! ## Whole texts -/

/-- By induction on the pieces of the scan; the first character of a piece says whether it is skipped
or taken. -/
theorem maximalMunch_of_scans {place : Nat} {cs : List Char} {s : Scan}
    (hs : Scans lexer.classes place cs s) :
    MaximalMunch lexer.classes place cs s.tokens s.ending := by
  induction hs with
  | finished place => exact .finished place
  | @piece place n cs c s hmatch hpos hlen hs ih =>
    by_cases hblank : EndsBlanks cs
    · have hl := h.longest_of_firstMatch hblank hmatch
      have hn : (cs.take n).length = n := List.length_take_of_le hlen
      have hcut : cs.take n ++ cs.drop n = cs := List.take_append_drop n cs
      have htokens : (s.cons (pieceAt c place cs n)).tokens = pieceAt c place cs n :: s.tokens := by
        simp [Scan.tokens, Scan.cons, pieceAt, hl.isLexeme.isBlank (h.known c hl.mem)]
      have hrest : MaximalMunch lexer.classes (place + (cs.take n).length) (cs.drop n) s.tokens
          s.ending := by rwa [hn]
      have htaken := MaximalMunch.token (hcut.symm ▸ hblank) hl hrest
      rw [hcut, hn] at htaken
      rw [htokens]
      exact htaken
    · obtain ⟨run, rest, rfl, hne, hrun, hrest⟩ := exists_run_of_not_endsBlanks hblank
      rw [h.firstMatch_blanks hne hrun hrest] at hmatch
      cases hmatch
      rw [List.drop_left] at ih
      exact .blanks hne hrun hrest ih
  | @stuck place a cs hnone =>
    refine .stuck ?_ fun d hd lexeme rest hl heq => ?_
    · rw [← Bool.not_eq_true]
      intro ha
      have hblank : ¬ EndsBlanks (a :: cs) := by simp [EndsBlanks, ha]
      obtain ⟨run, rest, hcut, hne, hrun, hrest⟩ := exists_run_of_not_endsBlanks hblank
      rw [hcut, h.firstMatch_blanks hne hrun hrest] at hnone
      cases hnone
    · rw [← heq] at hnone
      exact h.firstMatch_ne_none hd hl hnone

/-- By induction on the blanks and lexemes. -/
theorem scanFrom_of_maximalMunch {place : Nat} {cs : List Char} {ts : List Token}
    {e : Scan.Ending} (hm : MaximalMunch lexer.classes place cs ts e) :
    (scanFrom lexer.classes 0 place cs).tokens = ts ∧
      (scanFrom lexer.classes 0 place cs).ending = e := by
  induction hm with
  | finished place =>
    rw [scanFrom]
    exact ⟨rfl, rfl⟩
  | @blanks place run rest ts e hne hrun hrest hm ih =>
    have hlead := leads_blank place hne rfl (h.firstMatch_blanks hne hrun hrest)
    exact ⟨hlead.tokens.trans ih.1, hlead.ending.trans ih.2⟩
  | @token place c lexeme rest ts e hblank hl hm ih =>
    have hknown := h.known c hl.mem
    have hlead := leads_token place (hl.isLexeme.ne_nil hknown) (hl.isLexeme.isBlank hknown)
      (h.firstMatch_of_longest hblank hl)
    refine ⟨?_, hlead.ending.trans ih.2⟩
    rw [hlead.tokens, ih.1]
    rfl
  | @stuck place a cs hblank hnone =>
    have hcases := @firstMatch_cases (a :: cs) lexer.classes
      fun d hd => solid_of_mem (h.known d hd)
    rcases hcases with hmatch | ⟨c, n, hmatch, -⟩
    · have hscan : scanFrom lexer.classes 0 place (a :: cs) =
          ⟨[], .failed (.unrecognized a place)⟩ := by
        simp only [scanFrom, hmatch]
      rw [hscan]
      exact ⟨rfl, rfl⟩
    · have hl := h.longest_of_firstMatch (.cons cs hblank) hmatch
      exact absurd (List.take_append_drop n (a :: cs)) (hnone c hl.mem hl.isLexeme)

end Lexer.Standard

/-- **A text is scanned by maximal munch**, in the whole language and in its core: the scan has the
tokens, with their classes and spans, and the end or the error of the scan that skips blanks and
compares all lexemes. So the order in which the classes are tried matters only to words that are
operators and names alike. -/
theorem scan_iff_maximalMunch {lexer : Lexer} (hlexer : lexer = .default ∨ lexer = .core)
    (text : String) (ts : List Token) (e : Scan.Ending) :
    MaximalMunch lexer.classes 0 text.toList ts e ↔
      (lexer.scan text).tokens = ts ∧ (lexer.scan text).ending = e := by
  have h : lexer.Standard := Lexer.standard_of_eq hlexer
  constructor
  · exact h.scanFrom_of_maximalMunch
  · rintro ⟨rfl, rfl⟩
    have hscans := scans_scanFrom (fun c hc => solid_of_mem (h.known c hc)) 0 text.toList
    exact h.maximalMunch_of_scans hscans

/-- A name that begins with a word spelling, a symbol that begins with another one, a word that is
both an operator and a name, and a character that begins no lexeme. -/
theorem scan_iff_maximalMunch_overlapping :
    (Lexer.default = .default ∨ Lexer.default = .core) ∧
      MaximalMunch Lexer.default.classes 0 "ANDY && AND ?".toList
        [⟨variableName, "ANDY", 0, 4⟩, ⟨conjunction, "&&", 5, 7⟩, ⟨conjunction, "AND", 8, 11⟩]
        (.failed (.unrecognized '?' 12)) := by
  have hlexer : Lexer.default = .default ∨ Lexer.default = .core := .inl rfl
  refine ⟨hlexer, (scan_iff_maximalMunch hlexer "ANDY && AND ?" _ _).mpr ⟨?_, ?_⟩⟩
  · decide +kernel
  · decide +kernel

end Propositional
