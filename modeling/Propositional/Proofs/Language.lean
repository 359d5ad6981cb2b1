import Propositional.Proofs.Scanning

/-!
# The classes of the language

* `Lexer.Standard` — a lexer of the base classes, negation, and any of the other operator classes;
  the lexers of the whole language and of its core are standard.
* `spelling_cases` — the spellings of the language are names and symbols.
* `firstMatch_mark`, `firstMatch_symbol`, `firstMatch_blanks`, `firstMatch_name` — what a standard
  lexer finds at the pieces of a printed formula.
* `isName_of_found` — an identifier that is found is a name and no word spelling.
-/

namespace Propositional

open TokenClass

/-! ## The token classes of the connectives -/

/-- The class of the operator tokens of a connective. -/
def Connective.tokenClass : Connective → TokenClass
  | not => negation
  | and => conjunction
  | or => disjunction
  | xor => exclusion
  | implies => implication
  | iff => equivalence

theorem Connective.tokenClass_role (k : Connective) :
    k.tokenClass.role = .operator (.ofKind k) := by
  cases k <;> rfl

/-- The base classes and the classes of the connectives are all there are. -/
theorem mem_defaultClasses {c : TokenClass} : c ∈ defaultClasses ↔
    c = whitespace ∨ c = openParenthesis ∨ c = closeParenthesis ∨ c = variableName ∨
      ∃ k : Connective, c = k.tokenClass := by
  simp only [defaultClasses_eq, List.mem_cons, List.not_mem_nil, or_false]
  constructor
  · rintro (h | h | h | h | h | h | h | h | h | h)
    · exact .inl h
    · exact .inr (.inl h)
    · exact .inr (.inr (.inl h))
    · exact .inr (.inr (.inr (.inl h)))
    · exact .inr (.inr (.inr (.inr ⟨.not, h⟩)))
    · exact .inr (.inr (.inr (.inr ⟨.and, h⟩)))
    · exact .inr (.inr (.inr (.inr ⟨.or, h⟩)))
    · exact .inr (.inr (.inr (.inr ⟨.xor, h⟩)))
    · exact .inr (.inr (.inr (.inr ⟨.implies, h⟩)))
    · exact .inr (.inr (.inr (.inr ⟨.iff, h⟩)))
  · rintro (rfl | rfl | rfl | rfl | ⟨k, rfl⟩)
    · simp
    · simp
    · simp
    · simp
    · cases k <;> simp [Connective.tokenClass]

theorem eq_tokenClass {c : TokenClass} {op : Operator} (h : c ∈ defaultClasses)
    (hop : c.role = .operator op) : op = .ofKind op.kind ∧ c = op.kind.tokenClass := by
  rcases mem_defaultClasses.mp h with rfl | rfl | rfl | rfl | ⟨k, rfl⟩
  · cases hop
  · cases hop
  · cases hop
  · cases hop
  · rw [k.tokenClass_role] at hop
    cases hop
    exact ⟨rfl, rfl⟩

theorem eq_variableName {c : TokenClass} (h : c ∈ defaultClasses) (hid : c.role = .identifier) :
    c = variableName := by
  rcases mem_defaultClasses.mp h with rfl | rfl | rfl | rfl | ⟨k, rfl⟩
  · cases hid
  · cases hid
  · cases hid
  · rfl
  · rw [k.tokenClass_role] at hid
    cases hid

/-- Only the classes of connectives have spellings. -/
theorem exists_connective {c : TokenClass} {s : String} (h : c ∈ defaultClasses)
    (hs : s ∈ c.spellings) : ∃ k : Connective, c = k.tokenClass := by
  rcases mem_defaultClasses.mp h with rfl | rfl | rfl | rfl | ⟨k, rfl⟩
  · cases hs
  · cases hs
  · cases hs
  · cases hs
  · exact ⟨k, rfl⟩

/-- The parts that the classes of the language play. -/
theorem role_cases {c : TokenClass} (h : c ∈ defaultClasses) : c.role = .blank ∨
    c.role = .opening ∨ c.role = .closing ∨ c.role = .identifier ∨
      ∃ k : Connective, c.role = .operator (.ofKind k) := by
  rcases mem_defaultClasses.mp h with rfl | rfl | rfl | rfl | ⟨k, rfl⟩
  · exact .inl rfl
  · exact .inr (.inl rfl)
  · exact .inr (.inr (.inl rfl))
  · exact .inr (.inr (.inr (.inl rfl)))
  · exact .inr (.inr (.inr (.inr ⟨k, k.tokenClass_role⟩)))

theorem role_ne_finish_of_mem {c : TokenClass} (h : c ∈ defaultClasses) : c.role ≠ .finish := by
  rcases role_cases h with hr | hr | hr | hr | ⟨k, hr⟩ <;> simp [hr]

theorem role_ne_unbound_of_mem {c : TokenClass} (h : c ∈ defaultClasses) : c.role ≠ .unbound := by
  rcases role_cases h with hr | hr | hr | hr | ⟨k, hr⟩ <;> simp [hr]

theorem solid_of_mem {c : TokenClass} (h : c ∈ defaultClasses) : c.pattern.Solid := by
  rcases mem_defaultClasses.mp h with rfl | rfl | rfl | rfl | ⟨k, rfl⟩
  · trivial
  · exact (by decide : "(" ≠ "")
  · exact (by decide : ")" ≠ "")
  · trivial
  · cases k <;> exact ⟨by decide, by decide⟩

/-! ## Word spellings -/

/-- The spellings of some classes that are words. -/
def wordSpellings (classes : List TokenClass) : List String :=
  (classes.flatMap TokenClass.spellings).filter isAlphanumericWord

/-- A name that is a spelling is a word spelling. -/
theorem IsName.not_mem_spellings {s : String} (hs : IsName s) {classes : List TokenClass}
    (hword : s ∉ wordSpellings classes) : ∀ c ∈ classes, s ∉ c.spellings := by
  intro c hc hmem
  apply hword
  have hwide := isAlphanumericWord_of_isWordChar hs.toList_ne_nil hs.isWordChar
  rw [wordSpellings, List.mem_filter, List.mem_flatMap]
  exact ⟨⟨c, hc, hmem⟩, hwide⟩

/-- A text that begins with a character which no other kind of lexeme begins with, and which is no
word in any script. -/
def IsSymbol (s : String) : Prop :=
  (s.toList.head?.any fun a => !isWordChar a && !isBlank a && a != '(' && a != ')') = true ∧
    isAlphanumericWord s = false

theorem isName_of_head_of_all {s : String}
    (h : (s.toList.head?.any isLetter && s.toList.all isWordChar) = true) : IsName s := by
  rw [Bool.and_eq_true] at h
  cases hs : s.toList with
  | nil => simp [hs] at h
  | cons a as =>
    simp only [hs, List.head?_cons, Option.any_some, List.all_cons, Bool.and_eq_true,
      List.all_eq_true] at h
    exact ⟨a, as, hs, h.1, h.2.2⟩

/-- The spellings of the language are names and symbols. -/
theorem spelling_cases (k : Connective) : ∀ s ∈ k.tokenClass.spellings, IsName s ∨ IsSymbol s := by
  have hall : ∀ s ∈ k.tokenClass.spellings,
      (s.toList.head?.any isLetter && s.toList.all isWordChar) = true ∨ IsSymbol s := by
    unfold IsSymbol
    cases k <;> decide +kernel
  exact fun s hs => (hall s hs).imp_left isName_of_head_of_all

theorem IsName.exists_head {s : String} (h : IsName s) (rest : List Char) :
    ∃ a cs, s.toList ++ rest = a :: cs ∧ isLetter a = true := by
  obtain ⟨a, as, hs, ha, -⟩ := h
  exact ⟨a, as ++ rest, by rw [hs, List.cons_append], ha⟩

theorem IsSymbol.exists_head {s : String} (h : IsSymbol s) (rest : List Char) :
    ∃ a cs, s.toList ++ rest = a :: cs ∧
      isWordChar a = false ∧ isBlank a = false ∧ a ≠ '(' ∧ a ≠ ')' := by
  have hhead := h.1
  cases hs : s.toList with
  | nil => simp [hs] at hhead
  | cons a as =>
    refine ⟨a, as ++ rest, List.cons_append, ?_⟩
    simpa [hs, and_assoc] using hhead

theorem IsSymbol.toList_ne_nil {s : String} (h : IsSymbol s) : s.toList ≠ [] := by
  obtain ⟨a, cs, hcs, -⟩ := h.exists_head []
  rw [List.append_nil] at hcs
  rw [hcs]
  exact List.cons_ne_nil a cs

/-- No spelling begins with a blank or a parenthesis. -/
theorem spelling_head {k : Connective} {s : String} (hs : s ∈ k.tokenClass.spellings)
    {a : Char} {cs : List Char} (hp : s.toList <+: a :: cs) :
    isBlank a = false ∧ a ≠ '(' ∧ a ≠ ')' := by
  obtain ⟨rest, hrest⟩ := hp
  rcases spelling_cases k s hs with hname | hsymbol
  · obtain ⟨b, bs, heq, hb⟩ := hname.exists_head rest
    rw [hrest] at heq
    cases heq
    refine ⟨isBlank_of_isWordChar (isWordChar_of_isLetter hb), ?_, ?_⟩
    · rintro rfl
      exact absurd hb (by decide)
    · rintro rfl
      exact absurd hb (by decide)
  · obtain ⟨b, bs, heq, -, hb⟩ := hsymbol.exists_head rest
    rw [hrest] at heq
    cases heq
    exact hb

theorem lexeme?_tokenClass (k : Connective) (cs : List Char) : k.tokenClass.lexeme? cs =
    .ok ((fittingSpelling? k.tokenClass.spellings cs).map String.length) := by
  cases k <;> rfl

/-- In front of the end of a word that is none of its spellings, an operator class finds nothing. -/
theorem lexeme?_tokenClass_name {k : Connective} {s : String} {rest : List Char} (hs : IsName s)
    (hne : s ∉ k.tokenClass.spellings) (hrest : EndsWord rest) :
    k.tokenClass.lexeme? (s.toList ++ rest) = .ok none := by
  have hnone : fittingSpelling? k.tokenClass.spellings (s.toList ++ rest) = none := by
    refine fittingSpelling?_eq_none.mpr fun t ht => ?_
    rw [← Bool.not_eq_true]
    intro hfits
    rcases spelling_cases k t ht with hname | hsymbol
    · rw [spellingFits_append_iff hname.toList_ne_nil hname.isWordChar hs.isWordChar hrest,
        String.toList_inj] at hfits
      exact hne (hfits ▸ ht)
    · -- a symbol and a name begin differently
      obtain ⟨more, hmore⟩ := prefix_of_spellingFits hfits
      obtain ⟨a, cs, hcs, ha, -⟩ := hsymbol.exists_head more
      obtain ⟨b, bs, hbs, hb⟩ := hs.exists_head rest
      rw [hmore, hbs] at hcs
      cases hcs
      rw [isWordChar_of_isLetter hb] at ha
      cases ha
  rw [lexeme?_tokenClass, hnone]
  rfl

/-- In front of a name, no base class but that of identifiers finds anything. -/
theorem lexeme?_base_name {c : TokenClass} {s : String} (rest : List Char) (hs : IsName s)
    (hc : c ∈ Collection.base.classes) (hne : c ≠ variableName) :
    c.lexeme? (s.toList ++ rest) = .ok none := by
  obtain ⟨a, as, has, ha, -⟩ := hs
  rw [has, List.cons_append]
  have hblank := isBlank_of_isWordChar (isWordChar_of_isLetter ha)
  have hopening : a ≠ '(' := by rintro rfl; exact absurd ha (by decide)
  have hclosing : a ≠ ')' := by rintro rfl; exact absurd ha (by decide)
  simp only [Collection.classes, List.mem_cons, List.not_mem_nil, or_false] at hc
  rcases hc with rfl | rfl | rfl | rfl
  · simp [TokenClass.lexeme?, Pattern.lexeme?, hblank]
  · simp [TokenClass.lexeme?, Pattern.lexeme?, Ne.symm hopening]
  · simp [TokenClass.lexeme?, Pattern.lexeme?, Ne.symm hclosing]
  · exact absurd rfl hne

/-! ## Standard lexers -/

/-- A lexer of the core classes and of some more of the language, which tries identifiers last. -/
structure Lexer.Standard (lexer : Lexer) : Prop where
  core : ∀ c ∈ coreClasses, c ∈ lexer.classes
  known : ∀ c ∈ lexer.classes, c ∈ defaultClasses
  names_last : ∃ others, lexer.classes = others ++ [variableName] ∧ variableName ∉ others

theorem Lexer.standard_default : Lexer.default.Standard where
  core := by decide
  known := by decide
  names_last := ⟨Lexer.default.classes.dropLast, by decide, by decide⟩

theorem Lexer.standard_core : Lexer.core.Standard where
  core := by decide
  known := by decide
  names_last := ⟨Lexer.core.classes.dropLast, by decide, by decide⟩

/-- The lexers of the whole language and of its core are standard. -/
theorem Lexer.standard_of_eq {lexer : Lexer} (h : lexer = .default ∨ lexer = .core) :
    lexer.Standard := by
  rcases h with rfl | rfl
  · exact standard_default
  · exact standard_core

theorem Lexer.wordSpellings_core : wordSpellings Lexer.core.classes = ["NOT", "AND", "OR"] := by
  decide +kernel

/-- The classes whose tokens are one character when a formula is printed, with that character. -/
def marks : List (TokenClass × Char) :=
  [(openParenthesis, '('), (closeParenthesis, ')'), (negation, '!')]

namespace Lexer.Standard

variable {lexer : Lexer} (h : lexer.Standard)

include h

/-- A class that alone in the whole language has a token at a place is found there. -/
theorem firstMatch_of_only {c : TokenClass} {cs : List Char} {n : Nat} (hmem : c ∈ lexer.classes)
    (hc : c.lexeme? cs = .ok (some n))
    (hothers : ∀ d ∈ defaultClasses, d ≠ c → d.lexeme? cs = .ok none) :
    firstMatch lexer.classes cs = .ok (some (c, n)) :=
  firstMatch_of_unique hc hmem fun d hd => hothers d (h.known d hd)

/-- A parenthesis or a negation is found whatever follows it. -/
theorem firstMatch_mark {c : TokenClass} {a : Char} (hmark : (c, a) ∈ marks) (rest : List Char) :
    firstMatch lexer.classes (a :: rest) = .ok (some (c, 1)) := by
  simp only [marks, List.mem_cons, List.not_mem_nil, or_false, Prod.mk.injEq] at hmark
  have hcore : c ∈ coreClasses := by
    rcases hmark with ⟨rfl, rfl⟩ | ⟨rfl, rfl⟩ | ⟨rfl, rfl⟩ <;> decide
  have hfound : c.lexeme? (a :: rest) = .ok (some 1) := by
    rcases hmark with ⟨rfl, rfl⟩ | ⟨rfl, rfl⟩ | ⟨rfl, rfl⟩ <;> rfl
  refine h.firstMatch_of_only (h.core c hcore) hfound fun d hd hne => ?_
  rcases mem_defaultClasses.mp hd with rfl | rfl | rfl | rfl | ⟨k, rfl⟩
  · rcases hmark with ⟨rfl, rfl⟩ | ⟨rfl, rfl⟩ | ⟨rfl, rfl⟩ <;> rfl
  · rcases hmark with ⟨rfl, rfl⟩ | ⟨rfl, rfl⟩ | ⟨rfl, rfl⟩ <;> first | rfl | exact absurd rfl hne
  · rcases hmark with ⟨rfl, rfl⟩ | ⟨rfl, rfl⟩ | ⟨rfl, rfl⟩ <;> first | rfl | exact absurd rfl hne
  · rcases hmark with ⟨rfl, rfl⟩ | ⟨rfl, rfl⟩ | ⟨rfl, rfl⟩ <;> rfl
  · rcases hmark with ⟨rfl, rfl⟩ | ⟨rfl, rfl⟩ | ⟨rfl, rfl⟩ <;> cases k <;>
      first | rfl | exact absurd rfl hne

/-- A run of blanks is found as far as it goes. -/
theorem firstMatch_blanks {run rest : List Char} (hne : run ≠ [])
    (hrun : ∀ a ∈ run, isBlank a = true) (hrest : EndsBlanks rest) :
    firstMatch lexer.classes (run ++ rest) = .ok (some (whitespace, run.length)) := by
  obtain ⟨a, as, rfl⟩ := List.exists_cons_of_ne_nil hne
  have ha : isBlank a = true := hrun a List.mem_cons_self
  have hfound : whitespace.lexeme? (a :: as ++ rest) = .ok (some (a :: as).length) := by
    simp only [TokenClass.lexeme?, whitespace_pattern, Pattern.lexeme?,
      takeWhile_append_of_head? hrun hrest, List.isEmpty_cons, Bool.false_eq_true, if_false]
  have hopening : a ≠ '(' := by rintro rfl; exact absurd ha (by decide)
  have hclosing : a ≠ ')' := by rintro rfl; exact absurd ha (by decide)
  have hletter : isLetter a = false := by
    rw [← Bool.not_eq_true]
    intro hletter
    rw [isBlank_of_isWordChar (isWordChar_of_isLetter hletter)] at ha
    cases ha
  rw [List.cons_append] at *
  refine h.firstMatch_of_only (h.core _ (by decide)) hfound fun d hd hne => ?_
  rcases mem_defaultClasses.mp hd with rfl | rfl | rfl | rfl | ⟨k, rfl⟩
  · exact absurd rfl hne
  · simp [TokenClass.lexeme?, Pattern.lexeme?, Ne.symm hopening]
  · simp [TokenClass.lexeme?, Pattern.lexeme?, Ne.symm hclosing]
  · simp [TokenClass.lexeme?, Pattern.lexeme?, hletter]
  · rw [lexeme?_tokenClass, Except.ok.injEq, Option.map_eq_none_iff, fittingSpelling?_eq_none]
    intro s hs
    rw [← Bool.not_eq_true]
    intro hfits
    have hhead := (spelling_head hs (prefix_of_spellingFits hfits)).1
    rw [ha] at hhead
    cases hhead

/-- The symbol of a connective is found in front of a space. -/
theorem firstMatch_symbol {k : Connective} (hk : k.tokenClass ∈ lexer.classes) (rest : List Char) :
    firstMatch lexer.classes (k.symbol.toList ++ ' ' :: rest) =
      .ok (some (k.tokenClass, k.symbol.length)) := by
  refine h.firstMatch_of_only hk ?_ fun d hd hne => ?_
  · cases k <;> rfl
  rcases mem_defaultClasses.mp hd with rfl | rfl | rfl | rfl | ⟨j, rfl⟩
  · cases k <;> rfl
  · cases k <;> rfl
  · cases k <;> rfl
  · cases k <;> rfl
  · cases j <;> cases k <;> first | rfl | exact absurd rfl hne

/-- **A name that is no word spelling is found as an identifier.** -/
theorem firstMatch_name {s : String} {rest : List Char} (hs : IsName s)
    (hword : s ∉ wordSpellings lexer.classes) (hrest : EndsWord rest) :
    firstMatch lexer.classes (s.toList ++ rest) = .ok (some (variableName, s.length)) := by
  have hnone := hs.not_mem_spellings hword
  refine firstMatch_of_unique (lexeme?_name hs hrest) (h.core _ (by decide)) fun d hd hne => ?_
  rcases mem_defaultClasses.mp (h.known d hd) with rfl | rfl | rfl | rfl | ⟨k, rfl⟩
  · exact lexeme?_base_name rest hs (by decide) hne
  · exact lexeme?_base_name rest hs (by decide) hne
  · exact lexeme?_base_name rest hs (by decide) hne
  · exact absurd rfl hne
  · exact lexeme?_tokenClass_name hs (hnone _ hd) hrest

/-- Identifiers are tried last: where one is found, no other class has a token. -/
theorem lexeme?_eq_none_of_name {cs : List Char} {n : Nat}
    (hmatch : firstMatch lexer.classes cs = .ok (some (variableName, n))) :
    ∀ c ∈ lexer.classes, c ≠ variableName → c.lexeme? cs = .ok none := by
  obtain ⟨others, hclasses, hlast⟩ := h.names_last
  have hnone : firstMatch others cs = .ok none := by
    rw [hclasses, firstMatch_append] at hmatch
    split at hmatch
    · assumption
    · obtain ⟨-, before, after, heq, -⟩ := exists_of_firstMatch hmatch
      exact absurd (by simp [heq]) hlast
  intro c hc hne
  rw [hclasses, List.mem_append, List.mem_singleton] at hc
  exact firstMatch_eq_none.mp hnone c (hc.resolve_right hne)

/-- **An identifier that is found is a name and no word spelling.** -/
theorem isName_of_found {t : Token} (ht : Found lexer.classes t) (hcls : t.cls = variableName) :
    IsName t.value ∧ t.value ∉ wordSpellings lexer.classes := by
  obtain ⟨cs, n, hmatch, hvalue⟩ := ht
  rw [hcls] at hmatch
  have hfound := (exists_of_firstMatch hmatch).1
  obtain ⟨hs, rest, hcs, hrest⟩ := exists_of_lexeme?_name hfound
  rw [← hvalue] at hs hcs
  refine ⟨hs, fun hword => ?_⟩
  obtain ⟨c, hc, hmem⟩ : ∃ c ∈ lexer.classes, t.value ∈ c.spellings := by
    rw [wordSpellings, List.mem_filter, List.mem_flatMap] at hword
    exact hword.1
  -- the class that has the word among its spellings would have been found first
  obtain ⟨k, rfl⟩ := exists_connective (h.known c hc) hmem
  have hnone := h.lexeme?_eq_none_of_name hmatch _ hc (by cases k <;> decide)
  have hfits : spellingFits t.value cs = true := by
    rw [hcs, spellingFits_append_iff hs.toList_ne_nil hs.isWordChar hs.isWordChar hrest]
  rw [lexeme?_tokenClass, Except.ok.injEq, Option.map_eq_none_iff, fittingSpelling?_eq_none] at hnone
  rw [hnone _ hmem] at hfits
  cases hfits

end Lexer.Standard

end Propositional
