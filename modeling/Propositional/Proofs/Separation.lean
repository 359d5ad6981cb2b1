import Mathlib.Data.List.Chain
import Propositional.Proofs.MaximalMunch

/-!
# Texts that are written item by item

Parentheses, operators and names are written one after the other, with blanks between them or
without. The scan of such a text has the items as its tokens, unless two of them stand together
without a blank that run into one another: two words do, and so do `&` and `|` in front of a
spelling that begins with the same character.

* `Item`, `Gap` — what is written, and the blanks around it.
* `Item.Merges` — two items that need a blank between them.
* `Item.firstMatch_iff` — which texts an item is found in front of.
* `scan_written_iff` — the scan has the items as its tokens exactly if no two items merge.
-/

namespace Propositional

open TokenClass

/-! ## Items and gaps -/

/-- What is written as one piece: a parenthesis, a spelling of an operator, or a name that is no
word spelling. -/
inductive Item where
  | parenthesis (c : TokenClass) (a : Char) (h : IsParenthesis c a)
  | operator (c : TokenClass) (s : String) (hc : c ∈ Lexer.default.classes) (hs : s ∈ c.spellings)
  | name (s : String) (h : IsName s) (hword : s ∉ wordSpellings Lexer.default.classes)

/-- Blanks, or nothing at all. -/
def Gap : Type := {blanks : List Char // ∀ a ∈ blanks, isBlank a = true}

namespace Item

def cls : Item → TokenClass
  | parenthesis c _ _ | operator c _ _ _ => c
  | name _ _ _ => variableName

def text : Item → List Char
  | parenthesis _ a _ => [a]
  | operator _ s _ _ | name s _ _ => s.toList

/-- A name, or a word spelling. -/
def IsWord : Item → Prop
  | parenthesis _ _ _ => False
  | operator _ s _ _ => isAlphanumericWord s = true
  | name _ _ _ => True

/-- Without a blank between them the first item runs into the second one. -/
def Merges (x y : Item) : Prop :=
  (x.IsWord ∧ y.IsWord) ∨ (x.text = ['&'] ∧ y.text.head? = some '&') ∨
    (x.text = ['|'] ∧ y.text.head? = some '|')

/-- The item ends where the rest of the text begins. -/
structure EndsBefore (x : Item) (behind : List Char) : Prop where
  word : x.IsWord → EndsWord behind
  ampersand : x.text = ['&'] → behind.head? ≠ some '&'
  bar : x.text = ['|'] → behind.head? ≠ some '|'

/-- An item begins with a character that is no blank, and with a letter or digit exactly if it is a
word. -/
theorem exists_head (x : Item) : ∃ a cs, x.text = a :: cs ∧ isBlank a = false ∧
    (isWordChar a = true ↔ x.IsWord) := by
  have hname : ∀ {s : String}, IsName s → ∃ a cs, s.toList = a :: cs ∧ isBlank a = false ∧
      isWordChar a = true := by
    rintro s ⟨a, cs, hs, ha, -⟩
    have hword := isWordChar_of_isLetter ha
    exact ⟨a, cs, hs, isBlank_of_isWordChar hword, hword⟩
  cases x with
  | parenthesis c a h =>
    refine ⟨a, [], rfl, ?_⟩
    cases h <;> simp [IsWord] <;> decide
  | operator c s hc hs =>
    obtain ⟨k, rfl⟩ := exists_connective (Lexer.standard_default.known c hc) hs
    rcases spelling_cases k s hs with hs' | hs'
    · obtain ⟨a, cs, heq, hblank, hword⟩ := hname hs'
      have hwide := isAlphanumericWord_of_isWordChar hs'.toList_ne_nil hs'.isWordChar
      exact ⟨a, cs, heq, hblank, iff_of_true hword hwide⟩
    · obtain ⟨a, cs, heq, hword, hblank, -⟩ := hs'.exists_head []
      rw [List.append_nil] at heq
      refine ⟨a, cs, heq, hblank, ?_⟩
      simp [IsWord, hword, hs'.2]
  | name s h hword =>
    obtain ⟨a, cs, heq, hblank, ha⟩ := hname h
    exact ⟨a, cs, heq, hblank, iff_of_true ha trivial⟩

theorem text_ne_nil (x : Item) : x.text ≠ [] := by
  obtain ⟨a, cs, heq, -⟩ := x.exists_head
  rw [heq]
  exact List.cons_ne_nil a cs

theorem head?_append (x : Item) (rest : List Char) : (x.text ++ rest).head? = x.text.head? := by
  obtain ⟨a, cs, heq, -⟩ := x.exists_head
  rw [heq]
  rfl

theorem endsBlanks (x : Item) (rest : List Char) : EndsBlanks (x.text ++ rest) := by
  obtain ⟨a, cs, heq, hblank, -⟩ := x.exists_head
  rw [heq]
  exact .cons _ hblank

theorem isBlank_cls (x : Item) : x.cls.isBlank = false := by
  cases x with
  | parenthesis c a h => cases h <;> rfl
  | operator c s hc hs =>
    obtain ⟨k, rfl⟩ := exists_connective (Lexer.standard_default.known c hc) hs
    cases k <;> rfl
  | name s h hword => rfl

/-- In front of another item, an item ends exactly if the two do not merge. -/
theorem endsBefore_append_iff (x y : Item) (rest : List Char) :
    x.EndsBefore (y.text ++ rest) ↔ ¬ x.Merges y := by
  obtain ⟨a, cs, heq, -, hword⟩ := y.exists_head
  have hends : EndsWord (y.text ++ rest) ↔ ¬ y.IsWord := by
    rw [← hword, heq, Bool.not_eq_true]
    simp [EndsWord]
  have hhead := y.head?_append rest
  constructor
  · rintro h (⟨hx, hy⟩ | ⟨hx, hy⟩ | ⟨hx, hy⟩)
    · exact hends.mp (h.word hx) hy
    · exact h.ampersand hx (hhead.trans hy)
    · exact h.bar hx (hhead.trans hy)
  · intro h
    refine ⟨fun hx => hends.mpr fun hy => h (.inl ⟨hx, hy⟩), fun hx hy => ?_, fun hx hy => ?_⟩
    · exact h (.inr (.inl ⟨hx, hhead.symm.trans hy⟩))
    · exact h (.inr (.inr ⟨hx, hhead.symm.trans hy⟩))

theorem endsBefore_nil (x : Item) : x.EndsBefore [] := ⟨fun _ => .nil, nofun, nofun⟩

/-- Every item ends in front of a blank. -/
theorem endsBefore_blank (x : Item) {a : Char} (ha : isBlank a = true) (rest : List Char) :
    x.EndsBefore (a :: rest) := by
  refine ⟨fun _ => .cons rest ?_, fun _ heq => ?_, fun _ heq => ?_⟩
  · rw [← Bool.not_eq_true]
    intro hword
    rw [isBlank_of_isWordChar hword] at ha
    cases ha
  · cases heq
    exact absurd ha (by decide)
  · cases heq
    exact absurd ha (by decide)

end Item

/-! ## Where an item is found -/

/-- The only spellings that begin a longer spelling of their connective are `&` and `|`. -/
theorem longer_spelling (k : Connective) : ∀ s ∈ k.tokenClass.spellings,
    ∀ t ∈ k.tokenClass.spellings, s.toList <+: t.toList →
      s = t ∨ (s = "&" ∧ t = "&&") ∨ (s = "|" ∧ t = "||") := by
  cases k <;> decide +kernel

/-- A spelling that begins a text fits there unless it is a word that goes on behind it. -/
theorem spellingFits_append (s : String) (behind : List Char) :
    spellingFits s (s.toList ++ behind) = true ↔
      (isAlphanumericWord s = true → EndsWord behind) := by
  have hdrop : (s.toList ++ behind).drop s.length = behind := by
    rw [← String.length_toList, List.drop_left]
  have hprefix : s.toList.isPrefixOf (s.toList ++ behind) = true :=
    List.isPrefixOf_iff_prefix.mpr (List.prefix_append _ _)
  unfold spellingFits
  rw [hdrop, hprefix, Bool.true_and]
  cases behind with
  | nil => simp [EndsWord]
  | cons a behind => cases hword : isAlphanumericWord s <;> simp [EndsWord]

/-- If a symbol of two characters begins where a spelling of one character was found, it is no
spelling of the same connective. -/
theorem not_mem_spellings_of_found {k : Connective} {s t : String} {cs : List Char}
    (hfound : fittingSpelling? k.tokenClass.spellings cs = some s)
    (hsymbol : isAlphanumericWord t = false) (hp : t.toList <+: cs) (hlen : s.length < t.length) :
    t ∉ k.tokenClass.spellings := by
  intro ht
  have hle := length_le_of_fittingSpelling? hfound ht (spellingFits_of_isPrefix hsymbol hp)
  omega

theorem ampersands_mem (k : Connective) :
    "&" ∈ k.tokenClass.spellings → "&&" ∈ k.tokenClass.spellings := by
  cases k <;> decide

theorem bars_mem (k : Connective) :
    "|" ∈ k.tokenClass.spellings → "||" ∈ k.tokenClass.spellings := by
  cases k <;> decide

/-- An operator is read by a spelling that begins the text exactly if the spelling ends there. -/
theorem fittingSpelling?_append_iff {k : Connective} {s : String} (hs : s ∈ k.tokenClass.spellings)
    (hc : k.tokenClass ∈ Lexer.default.classes) (behind : List Char) :
    fittingSpelling? k.tokenClass.spellings (s.toList ++ behind) = some s ↔
      (Item.operator k.tokenClass s hc hs).EndsBefore behind := by
  constructor
  · intro hfound
    obtain ⟨-, hfits⟩ := exists_of_fittingSpelling? hfound
    refine ⟨(spellingFits_append s behind).mp hfits, fun heq hhead => ?_, fun heq hhead => ?_⟩
    · obtain rfl : s = "&" := String.toList_inj.mp heq
      obtain ⟨rest, rfl⟩ := List.head?_eq_some_iff.mp hhead
      have hp : "&&".toList <+: "&".toList ++ '&' :: rest := ⟨rest, rfl⟩
      exact not_mem_spellings_of_found hfound (by decide) hp (by decide) (ampersands_mem k hs)
    · obtain rfl : s = "|" := String.toList_inj.mp heq
      obtain ⟨rest, rfl⟩ := List.head?_eq_some_iff.mp hhead
      have hp : "||".toList <+: "|".toList ++ '|' :: rest := ⟨rest, rfl⟩
      exact not_mem_spellings_of_found hfound (by decide) hp (by decide) (bars_mem k hs)
  · intro h
    have hfits : spellingFits s (s.toList ++ behind) = true :=
      (spellingFits_append s behind).mpr h.word
    cases hfound : fittingSpelling? k.tokenClass.spellings (s.toList ++ behind) with
    | none =>
      rw [fittingSpelling?_eq_none.mp hfound s hs] at hfits
      cases hfits
    | some t =>
      -- what is found is no shorter, so the spelling begins it
      obtain ⟨ht, htfits⟩ := exists_of_fittingSpelling? hfound
      have hle := length_le_of_fittingSpelling? hfound hs hfits
      have hpt := prefix_of_spellingFits htfits
      have hst : s.toList <+: t.toList := by
        refine List.prefix_of_prefix_length_le (List.prefix_append _ behind) hpt ?_
        rwa [String.length_toList, String.length_toList]
      rcases longer_spelling k s hs t ht hst with rfl | ⟨rfl, rfl⟩ | ⟨rfl, rfl⟩
      · rfl
      · obtain ⟨rest, hrest⟩ := hpt
        exact absurd (congrArg List.head? (List.cons.inj hrest).2.symm) (h.ampersand rfl)
      · obtain ⟨rest, hrest⟩ := hpt
        exact absurd (congrArg List.head? (List.cons.inj hrest).2.symm) (h.bar rfl)

namespace Item

/-- **An item is found in front of a text exactly if it ends where the text begins.** -/
theorem firstMatch_iff (x : Item) (behind : List Char) :
    firstMatch Lexer.default.classes (x.text ++ behind) = .ok (some (x.cls, x.text.length)) ↔
      x.EndsBefore behind := by
  have h := Lexer.standard_default
  cases x with
  | parenthesis c a ha =>
    have hmark : (c, a) ∈ marks := by cases ha <;> simp [marks]
    refine iff_of_true (h.firstMatch_mark hmark behind) ⟨False.elim, fun heq => ?_, fun heq => ?_⟩
    · cases ha <;> cases heq
    · cases ha <;> cases heq
  | operator c s hc hs =>
    obtain ⟨k, rfl⟩ := exists_connective (Lexer.standard_default.known c hc) hs
    rw [← fittingSpelling?_append_iff hs hc]
    constructor
    · intro hmatch
      have hfound := (exists_of_firstMatch hmatch).1
      simp only [cls, text] at hfound
      rw [lexeme?_tokenClass, Except.ok.injEq, Option.map_eq_some_iff] at hfound
      obtain ⟨t, ht, hlen⟩ := hfound
      have hpt := prefix_of_spellingFits (exists_of_fittingSpelling? ht).2
      have hts : t.toList <+: s.toList := by
        refine List.prefix_of_prefix_length_le hpt (List.prefix_append _ behind) ?_
        rw [String.length_toList, hlen]
      have hsame := hts.eq_of_length (by rw [String.length_toList, hlen])
      rwa [String.toList_inj.mp hsame] at ht
    · intro hfound
      exact h.firstMatch_of_longest ((operator k.tokenClass s hc hs).endsBlanks behind)
        (h.longest_spelling hc hfound)
  | name s hs hword =>
    have hletters : ∀ a ∈ s.toList, isWordChar a = true := hs.isWordChar
    constructor
    · intro hmatch
      obtain ⟨-, rest, hcut, hrest⟩ := exists_of_lexeme?_name (exists_of_firstMatch hmatch).1
      simp only [text] at hcut
      rw [List.take_left, String.toList_ofList, List.append_cancel_left_eq] at hcut
      subst hcut
      refine ⟨fun _ => hrest, fun (heq : s.toList = _) => ?_, fun (heq : s.toList = _) => ?_⟩
      · exact absurd (hletters '&' (by simp [heq])) (by decide)
      · exact absurd (hletters '|' (by simp [heq])) (by decide)
    · intro hends
      have hfound := h.firstMatch_name hs hword (hends.word trivial)
      rwa [← String.length_toList] at hfound

end Item

/-! ## Written texts -/

/-- The text of some items, each with the gap behind it. -/
def written : List (Item × Gap) → List Char
  | [] => []
  | (x, gap) :: rest => x.text ++ (gap.val ++ written rest)

/-- The tokens of items that are written from a place on, each with its span. -/
def placed (place : Nat) : List (Item × Gap) → List Token
  | [] => []
  | (x, gap) :: rest =>
    tokenAt x.cls place x.text :: placed (place + x.text.length + gap.val.length) rest

/-- Where no blank stands between two items, they do not merge. -/
def Apart (p q : Item × Gap) : Prop := p.2.val = [] → ¬ p.1.Merges q.1

theorem endsBlanks_written : ∀ items : List (Item × Gap), EndsBlanks (written items)
  | [] => by simp [written, EndsBlanks]
  | (x, _) :: _ => x.endsBlanks _

/-- An item ends in front of its gap and the other items exactly if it is apart from the next. -/
theorem endsBefore_written_iff (x : Item) (gap : Gap) (items : List (Item × Gap)) :
    x.EndsBefore (gap.val ++ written items) ↔ ∀ q ∈ items.head?, Apart (x, gap) q := by
  obtain ⟨blanks, hblanks⟩ := gap
  cases blanks with
  | cons a blanks =>
    refine iff_of_true (x.endsBefore_blank (hblanks a List.mem_cons_self) _) fun q _ hnil => ?_
    cases hnil
  | nil =>
    cases items with
    | nil => exact iff_of_true x.endsBefore_nil (by simp)
    | cons q items =>
      rw [List.nil_append, written, x.endsBefore_append_iff]
      simp [Apart]

theorem leads_gap (gap : Gap) {rest : List Char} (hrest : EndsBlanks rest) (place : Nat) :
    (scanFrom Lexer.default.classes 0 place (gap.val ++ rest)).Leads []
      (scanFrom Lexer.default.classes 0 (place + gap.val.length) rest) := by
  by_cases hnil : gap.val = []
  · rw [hnil]
    exact ⟨rfl, rfl⟩
  · exact leads_blank place hnil rfl
      (Lexer.standard_default.firstMatch_blanks hnil gap.property hrest)

/-- An item that is found is the first token, and the scan goes on behind its gap. -/
theorem leads_item {x : Item} {gap : Gap} {items : List (Item × Gap)}
    (hmatch : firstMatch Lexer.default.classes (x.text ++ (gap.val ++ written items)) =
      .ok (some (x.cls, x.text.length))) (place : Nat) :
    (scanFrom Lexer.default.classes 0 place (written ((x, gap) :: items))).Leads
      [tokenAt x.cls place x.text]
      (scanFrom Lexer.default.classes 0 (place + x.text.length + gap.val.length) (written items)) :=
  (leads_token place x.text_ne_nil x.isBlank_cls hmatch).trans
    (leads_gap gap (endsBlanks_written items) _)

/-- If the first token of a scan is an item, the item is found at the beginning of the text. -/
theorem firstMatch_of_tokens {x : Item} {behind : List Char} {place : Nat} {ts : List Token}
    (htokens : (scanFrom Lexer.default.classes 0 place (x.text ++ behind)).tokens =
      tokenAt x.cls place x.text :: ts) :
    firstMatch Lexer.default.classes (x.text ++ behind) = .ok (some (x.cls, x.text.length)) := by
  have h := Lexer.standard_default
  have hscans := scans_scanFrom (fun c hc => solid_of_mem (h.known c hc)) place (x.text ++ behind)
  have hblank := x.endsBlanks behind
  have hne : x.text ++ behind ≠ [] := List.append_ne_nil_of_left_ne_nil x.text_ne_nil behind
  generalize x.text ++ behind = cs at htokens hscans hblank hne ⊢
  generalize scanFrom Lexer.default.classes 0 place cs = s at htokens hscans
  cases hscans with
  | finished => exact absurd rfl hne
  | @piece _ n _ c s hmatch hpos hlen hs =>
    have hl := h.longest_of_firstMatch hblank hmatch
    have hc := hl.isLexeme.isBlank (h.known c hl.mem)
    have hfirst : (s.cons (pieceAt c place cs n)).tokens = pieceAt c place cs n :: s.tokens := by
      simp [Scan.tokens, Scan.cons, pieceAt, hc]
    rw [hfirst, List.cons.injEq, pieceAt, tokenAt, Token.mk.injEq] at htokens
    obtain ⟨⟨rfl, -, -, hstop⟩, -⟩ := htokens
    rw [hmatch, show n = x.text.length by omega]
  | stuck => cases htokens

/-- **A written text is scanned as its items exactly if neighbours that touch do not merge.** By
induction on the items: the first token of the scan is the first item exactly if that item is found
where it stands. -/
theorem scanFrom_written_iff : ∀ (items : List (Item × Gap)) (place : Nat),
    (scanFrom Lexer.default.classes 0 place (written items)).tokens =
        placed place items ++ [endToken (place + (written items).length)] ∧
      (scanFrom Lexer.default.classes 0 place (written items)).ending = .complete ↔
    items.IsChain Apart
  | [], place => by
    simp [written, placed, scanFrom, Scan.tokens]
    rfl
  | (x, gap) :: items, place => by
    have ih := scanFrom_written_iff items (place + x.text.length + gap.val.length)
    have hend : place + (written ((x, gap) :: items)).length =
        place + x.text.length + gap.val.length + (written items).length := by
      simp only [written, List.length_append]
      omega
    rw [List.isChain_cons, ← endsBefore_written_iff, ← ih, ← x.firstMatch_iff, hend, placed,
      List.cons_append]
    constructor
    · rintro ⟨htokens, hending⟩
      have hmatch := firstMatch_of_tokens htokens
      have hlead := leads_item hmatch place
      rw [hlead.tokens, List.singleton_append, List.cons.injEq] at htokens
      exact ⟨hmatch, htokens.2, hlead.ending.symm.trans hending⟩
    · rintro ⟨hmatch, htokens, hending⟩
      have hlead := leads_item hmatch place
      rw [hlead.tokens, htokens]
      exact ⟨rfl, hlead.ending.trans hending⟩

/-- **Blanks are needed between two words, and between `&` or `|` and a spelling that begins with
the same character, and nowhere else.** Any items, with any blanks before, between and behind them,
are the tokens of the text that they make up, each with its class and its span, exactly if no two of
them that merge touch. -/
theorem scan_written_iff (before : Gap) (items : List (Item × Gap)) :
    let text := String.ofList (before.val ++ written items)
    (Lexer.default.scan text).tokens = placed before.val.length items ++ [endToken text.length] ∧
        (Lexer.default.scan text).ending = .complete ↔
      items.IsChain Apart := by
  intro text
  have hlead := leads_gap before (endsBlanks_written items) 0
  have hlength : text.length = 0 + before.val.length + (written items).length := by
    rw [String.length_ofList, List.length_append, Nat.zero_add]
  rw [← scanFrom_written_iff items before.val.length, hlength, Lexer.scan, String.toList_ofList,
    hlead.tokens, hlead.ending, Nat.zero_add, List.nil_append]

end Propositional
