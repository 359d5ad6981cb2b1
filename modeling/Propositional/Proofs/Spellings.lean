import Propositional.Proofs.Tiling
import Propositional.Token.Builtin

/-!
# Operator classes match their longest spelling

An operator class may be given any spellings: symbols and words, one the beginning of another, the
same one twice. They are tried by falling length, and the first that stands at the place is taken. A
word that goes on in the text does not stand there, so a shorter spelling may be taken in its place.

* `StandsAt` — a spelling is read at a place of a text.
* `LongestAt`, `LongestAt.unique` — the longest of some spellings there; there is one at most.
* `fittingSpelling?_eq_some_iff` — the search through the ordered spellings finds it.
* `TokenClass.MatchesLongest` — a class finds the longest of some spellings at a place.
* `TokenClass.specialise_matchesLongest` — a new operator class does, with all its spellings.
-/

namespace Propositional

/-! ## Spellings at a place -/

/-- The text has the spelling at the place; if the spelling is a word, no letter or digit follows. -/
structure StandsAt (s text : String) (place : Nat) : Prop where
  begins : s.toList <+: text.toList.drop place
  endsWord : isAlphanumericWord s = true →
    ∀ c, text.toList[place + s.length]? = some c → isWordChar c = false

/-- The spelling stands at the place, and none of the others that stand there is longer. -/
structure LongestAt (ss : List String) (text : String) (place : Nat) (s : String) : Prop where
  mem : s ∈ ss
  stands : StandsAt s text place
  longest : ∀ t ∈ ss, StandsAt t text place → t.length ≤ s.length

section

variable {ss : List String} {text : String} {place : Nat} {s t : String}

theorem standsAt_iff :
    StandsAt s text place ↔ spellingFits s (text.toList.drop place) = true := by
  have hnext : ((text.toList.drop place).drop s.length).head? = text.toList[place + s.length]? := by
    rw [List.drop_drop, List.head?_drop]
  unfold spellingFits
  rw [hnext, Bool.and_eq_true, List.isPrefixOf_iff_prefix, Bool.not_eq_true', Bool.and_eq_false_iff]
  constructor
  · rintro ⟨hbegins, hends⟩
    refine ⟨hbegins, ?_⟩
    cases hword : isAlphanumericWord s with
    | false => exact .inl rfl
    | true =>
      right
      cases hc : text.toList[place + s.length]? with
      | none => rfl
      | some c => exact hends hword c hc
  · rintro ⟨hbegins, hends⟩
    refine ⟨hbegins, ?_⟩
    intro hword c hc
    rw [hword, hc] at hends
    simpa using hends

instance : Decidable (StandsAt s text place) := decidable_of_iff _ standsAt_iff.symm

/-- Two spellings of one length at the same place are the same. -/
theorem StandsAt.eq_of_length (hs : StandsAt s text place) (ht : StandsAt t text place)
    (hlen : s.length = t.length) : s = t := by
  apply String.toList_injective
  rw [List.prefix_iff_eq_take.mp hs.begins, List.prefix_iff_eq_take.mp ht.begins,
    String.length_toList, String.length_toList, hlen]

theorem LongestAt.unique (hs : LongestAt ss text place s) (ht : LongestAt ss text place t) :
    s = t := by
  apply hs.stands.eq_of_length ht.stands
  have := hs.longest t ht.mem ht.stands
  have := ht.longest s hs.mem hs.stands
  omega

instance : Decidable (LongestAt ss text place s) :=
  decidable_of_iff (s ∈ ss ∧ StandsAt s text place ∧
      ∀ t ∈ ss, StandsAt t text place → t.length ≤ s.length)
    ⟨fun ⟨hmem, hstands, hlongest⟩ => ⟨hmem, hstands, hlongest⟩,
      fun ⟨hmem, hstands, hlongest⟩ => ⟨hmem, hstands, hlongest⟩⟩

/-- Only the members count, neither their order nor how often one occurs. -/
theorem LongestAt.of_mem_iff {more : List String} (hmem : ∀ t, t ∈ more ↔ t ∈ ss)
    (h : LongestAt ss text place s) : LongestAt more text place s :=
  ⟨(hmem s).mpr h.mem, h.stands, fun t ht => h.longest t ((hmem t).mp ht)⟩

/-- **The search by falling length finds the longest spelling that stands at the place.** -/
theorem fittingSpelling?_eq_some_iff :
    fittingSpelling? ss (text.toList.drop place) = some s ↔ LongestAt ss text place s := by
  have hfound : ∀ {u}, fittingSpelling? ss (text.toList.drop place) = some u →
      LongestAt ss text place u := by
    intro u h
    obtain ⟨hmem, hfits⟩ := exists_of_fittingSpelling? h
    refine ⟨hmem, standsAt_iff.mpr hfits, ?_⟩
    intro t ht hstands
    exact length_le_of_fittingSpelling? h ht (standsAt_iff.mp hstands)
  constructor
  · exact hfound
  · intro h
    cases hsome : fittingSpelling? ss (text.toList.drop place) with
    | none =>
      have hfits := standsAt_iff.mp h.stands
      rw [fittingSpelling?_eq_none.mp hsome s h.mem] at hfits
      cases hfits
    | some u => rw [(hfound hsome).unique h]

theorem fittingSpelling?_drop_eq_none :
    fittingSpelling? ss (text.toList.drop place) = none ↔ ∀ s ∈ ss, ¬ StandsAt s text place := by
  simp only [fittingSpelling?_eq_none, standsAt_iff, Bool.not_eq_true]

end

/-! ## Operator classes -/

namespace TokenClass

/-- At the place of the text the class comes to an answer: the longest of the spellings that stand
there, with its length, or nothing if none of them does. -/
structure MatchesLongest (c : TokenClass) (ss : List String) (text : String) (place : Nat) :
    Prop where
  answers : ∃ found, c.matchAt text place = .ok found
  found_iff : ∀ value length, c.matchAt text place = .ok (some (value, length)) ↔
    LongestAt ss text place value ∧ length = value.length
  nothing_iff : c.matchAt text place = .ok none ↔ ∀ s ∈ ss, ¬ StandsAt s text place

section

variable {ss : List String} (hne : ss ≠ []) (hsolid : ∀ s ∈ ss, s ≠ "")
include hne hsolid

/-- Spellings none of which is empty make a pattern that stands for something. -/
theorem spellings_fixed : (ss.isEmpty || ss = [""]) = false := by
  have hblank : ss ≠ [""] := by
    rintro rfl
    exact hsolid "" (List.mem_singleton_self "") rfl
  simp [hne, hblank]

/-- A new operator class has its spellings as its pattern, be they its own or taken over. -/
theorem pattern_specialise {base : TokenClass} {own : Features} (name : String)
    (hbase : base.family = .operator) (hss : own.spellings.getD base.spellings = ss) :
    (base.specialise name own).pattern = .spellings ss := by
  have hblank : ss ≠ [""] := by simpa [hne] using spellings_fixed hne hsolid
  have hregex : (base.specialise name own).regex = some (.spellings ss) := by
    unfold specialise
    simp only [hss, hbase, hne, ne_eq, not_false_eq_true, and_self, if_true]
    exact if_neg hblank
  unfold pattern
  rw [hregex]

variable {c : TokenClass} (hpattern : c.pattern = .spellings ss) {text : String} {place : Nat}
  (hplace : place ≤ text.length)
include hpattern hplace

/-- A class with spellings takes the first of them, longest first, that fits at the place. -/
theorem matchAt_of_pattern : c.matchAt text place =
    .ok ((fittingSpelling? ss (text.toList.drop place)).map fun s => (s, (s.length : Int))) := by
  have hfixed := spellings_fixed hne hsolid
  rw [matchAt_of_le _ hplace]
  unfold lexeme?
  rw [hpattern]
  unfold Pattern.lexeme?
  simp only [hfixed, Bool.false_eq_true, if_false]
  cases hfound : fittingSpelling? ss (text.toList.drop place) with
  | none => rfl
  | some s =>
    have hbegins := prefix_of_spellingFits (exists_of_fittingSpelling? hfound).2
    have htake : String.ofList ((text.toList.drop place).take s.length) = s := by
      rw [← String.length_toList, ← List.prefix_iff_eq_take.mp hbegins, String.ofList_toList]
    simp only [Option.map_some, Except.map, htake]

theorem matchesLongest_of_pattern : c.MatchesLongest ss text place where
  answers := ⟨_, matchAt_of_pattern hne hsolid hpattern hplace⟩
  found_iff value length := by
    rw [matchAt_of_pattern hne hsolid hpattern hplace, Except.ok.injEq, Option.map_eq_some_iff]
    constructor
    · rintro ⟨s, hfound, heq⟩
      cases heq
      exact ⟨fittingSpelling?_eq_some_iff.mp hfound, rfl⟩
    · rintro ⟨hlongest, rfl⟩
      exact ⟨value, fittingSpelling?_eq_some_iff.mpr hlongest, rfl⟩
  nothing_iff := by
    rw [matchAt_of_pattern hne hsolid hpattern hplace, Except.ok.injEq, Option.map_eq_none_iff,
      fittingSpelling?_drop_eq_none]

end

/-- Classes that match the longest of the same spellings give the same answers. -/
theorem MatchesLongest.congr {c d : TokenClass} {ss more : List String} {text : String}
    {place : Nat} (hc : c.MatchesLongest ss text place) (hd : d.MatchesLongest more text place)
    (hmem : ∀ s, s ∈ more ↔ s ∈ ss) : d.matchAt text place = c.matchAt text place := by
  obtain ⟨found, hfound⟩ := hc.answers
  rw [hfound]
  cases found with
  | none =>
    have hnothing := hc.nothing_iff.mp hfound
    exact hd.nothing_iff.mpr fun s hs => hnothing s ((hmem s).mp hs)
  | some answer =>
    obtain ⟨value, length⟩ := answer
    obtain ⟨hlongest, hlength⟩ := (hc.found_iff value length).mp hfound
    exact (hd.found_iff value length).mpr ⟨hlongest.of_mem_iff hmem, hlength⟩

/-- **An operator class matches its longest spelling.** Let a new class specialise any operator class,
and have some spellings, none of them empty, whatever else it sets or takes over. At every place of a
text it finds the longest of the spellings that stand there, and nothing if and only if none does;
another class with the same spellings, in any order and any number of times, gives the same answers.
If a class specialises the one operator class that has no attributes, and sets neither spellings nor
a regular expression nor a text, then no pieces of text have been fixed, and asking for one is an
error. -/
theorem specialise_matchesLongest :
    (∀ (base : TokenClass) (own : Features) (ss : List String) (name : String),
      base.family = .operator → own.spellings.getD base.spellings = ss → ss ≠ [] →
      (∀ s ∈ ss, s ≠ "") → ∀ (text : String) (place : Nat), place ≤ text.length →
        (base.specialise name own).MatchesLongest ss text place ∧
        ∀ (base' : TokenClass) (own' : Features) (name' : String), base'.family = .operator →
          (∀ s, s ∈ own'.spellings.getD base'.spellings ↔ s ∈ ss) →
            (base'.specialise name' own').matchAt text place =
              (base.specialise name own).matchAt text place) ∧
    ∀ (own : Features) (name : String), own.spellings.getD [] = [] → own.regex.getD none = none →
      own.text.getD none = none → ∀ (text : String) (place : Int),
        (unboundOperator.specialise name own).matchAt text place = .error .undefinedPattern := by
  constructor
  · intro base own ss name hbase hss hne hsolid text place hplace
    have hpattern := pattern_specialise hne hsolid name hbase hss
    have hmatches := matchesLongest_of_pattern hne hsolid hpattern hplace
    refine ⟨hmatches, ?_⟩
    intro base' own' name' hbase' hmem
    have hne' : own'.spellings.getD base'.spellings ≠ [] := by
      intro hnil
      obtain ⟨s, hs⟩ := List.exists_mem_of_ne_nil _ hne
      rw [← hmem, hnil] at hs
      cases hs
    have hsolid' := fun s hs => hsolid s ((hmem s).mp hs)
    have hpattern' := pattern_specialise hne' hsolid' name' hbase' rfl
    exact hmatches.congr (matchesLongest_of_pattern hne' hsolid' hpattern' hplace) hmem
  · intro own name hss hregex htext text place
    have hpattern : (unboundOperator.specialise name own).pattern = .undefined := by
      simp [pattern, specialise, unboundOperator, hss, hregex, htext]
    unfold matchAt lexeme?
    rw [hpattern]
    rfl

/-- Two words and two symbols, one of each the beginning of the other. The longer word goes on with
a letter, so the shorter one is found, and behind the words the longer symbol. A class that
specialises the conjunction has its own spelling for it, or takes over those that are there. -/
theorem specialise_matchesLongest_overlapping :
    let arrow := unboundOperator.specialise "Arrow"
      { kind := some (some .and), spellings := some ["A", "-", "->", "Aé", "-"] }
    let again := unboundOperator.specialise "Again"
      { kind := some (some .or), spellings := some ["Aé", "->", "-", "A"] }
    let plus := conjunction.specialise "Plus" { spellings := some ["plus"] }
    let same := conjunction.specialise "Same" { kind := some (some .or), text := some (some "+") }
    arrow.matchAt "AéB->" 0 = .ok (some ("A", 1)) ∧
    arrow.matchAt "AéB->" 3 = .ok (some ("->", 2)) ∧
    arrow.matchAt "AéB->" 5 = .ok none ∧
    again.matchAt "AéB->" 3 = .ok (some ("->", 2)) ∧
    plus.role = .operator (.ofKind .and) ∧ plus.matchAt "plus&&" 0 = .ok (some ("plus", 4)) ∧
    plus.matchAt "plus&&" 4 = .ok none ∧ same.matchAt "plus&&" 4 = .ok (some ("&&", 2)) ∧
    (unboundOperator.specialise "Empty" { kind := some (some .and) }).matchAt "A" 0 =
      .error .undefinedPattern := by
  intro arrow again plus same
  obtain ⟨hlongest, hempty⟩ := specialise_matchesLongest
  have harrow := hlongest unboundOperator
    { kind := some (some .and), spellings := some ["A", "-", "->", "Aé", "-"] } _ "Arrow" rfl rfl
    (by decide) (by decide) "AéB->"
  have hplus := hlongest conjunction { spellings := some ["plus"] } _ "Plus" rfl rfl
    (by decide) (by decide) "plus&&"
  have hsame := hlongest conjunction { kind := some (some .or), text := some (some "+") } _ "Same"
    rfl rfl (by decide) (by decide) "plus&&"
  obtain ⟨hthree, hagain⟩ := harrow 3 (by decide)
  have hfound := (hthree.found_iff "->" 2).mpr ⟨by decide +kernel, rfl⟩
  refine ⟨?_, hfound, ?_, ?_, rfl, ?_, ?_, ?_, hempty _ "Empty" rfl rfl rfl "A" 0⟩
  · exact ((harrow 0 (by decide)).1.found_iff "A" 1).mpr ⟨by decide +kernel, rfl⟩
  · exact (harrow 5 (by decide)).1.nothing_iff.mpr (by decide +kernel)
  · rw [← hfound]
    apply hagain _ _ _ rfl
    intro s
    simp [or_comm, or_left_comm]
  · exact ((hplus 0 (by decide)).1.found_iff "plus" 4).mpr ⟨by decide +kernel, rfl⟩
  · exact (hplus 4 (by decide)).1.nothing_iff.mpr (by decide +kernel)
  · exact ((hsame 4 (by decide)).1.found_iff "&&" 2).mpr ⟨by decide +kernel, rfl⟩

/-- Without a spelling there is no answer, not even that nothing was found. -/
theorem not_matchesLongest_nil :
    ¬ ∀ ss : List String, (∀ s ∈ ss, s ≠ "") → ∀ (text : String) (place : Nat),
      place ≤ text.length → (unboundOperator.specialise "Empty"
        { kind := some (some .and), spellings := some ss }).MatchesLongest ss text place := by
  intro h
  have hnothing := (h [] (by simp) "A" 0 (by decide)).nothing_iff.mpr (by simp)
  have herror : (unboundOperator.specialise "Empty"
      { kind := some (some .and), spellings := some [] }).matchAt "A" (0 : Nat) =
        .error .undefinedPattern := rfl
  rw [herror] at hnothing
  cases hnothing

end TokenClass

end Propositional
