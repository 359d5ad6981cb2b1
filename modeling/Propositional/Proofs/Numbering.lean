import Mathlib.Algebra.Ring.Int.Defs
import Propositional.Proofs.Cursors

/-!
# Assignments are numbered in order

* `numberOf_lt_iff` — numbers are compared digit by digit, from the most significant one on.
* `Assignment.make_eq_ok_iff` — which numbers have an assignment, and which assignment it is.
* `Assignment.Decodes` — the digits are those of the number, and looking a name up reads the digit at
  its last position.
* `assignments_numbered` — the numbers below `2 ^ n` stand for the assignments to `n` names, one for
  each list of digits and in their order.
-/

namespace Propositional

/-! ## The order of numbers -/

/-- **Of two numbers with equally many digits the smaller one comes first in the lexicographic order
of the digits.** By induction on the digits: the first two that differ decide, since the digits
behind them amount to less. -/
theorem numberOf_lt_iff {bs cs : List Bool} (h : bs.length = cs.length) :
    numberOf bs < numberOf cs ↔ bs < cs := by
  induction bs generalizing cs with
  | nil =>
    obtain rfl : cs = [] := List.eq_nil_of_length_eq_zero h.symm
    simp
  | cons b bs ih =>
    cases cs with
    | nil => simp at h
    | cons c cs =>
      have hlen : bs.length = cs.length := by simpa using h
      have hbs := numberOf_lt bs
      have hcs := numberOf_lt cs
      rw [hlen] at hbs
      have hup : false < true := by decide
      have hdown : ¬ true < false := by decide
      rw [numberOf_cons, numberOf_cons, hlen, List.cons_lt_cons_iff, ← ih hlen]
      cases b with
      | false =>
        cases c with
        | false => simp
        | true =>
          simp only [hup, true_or, iff_true, Bool.toNat_false, Bool.toNat_true]
          omega
      | true =>
        cases c with
        | false =>
          simp only [hdown, Bool.true_eq_false, false_and, or_false, iff_false, Bool.toNat_false,
            Bool.toNat_true]
          omega
        | true => simp

/-! ## Names and their digits -/

/-- A name that is not in the list has no place. -/
theorem lookup_placeTable_of_not_mem {name : String} {names : List String} (h : name ∉ names) :
    (placeTable names).lookup name = none :=
  lookup_foldl_put_of_not_mem (fun k => (names.length : Int) - 1 - k) name h

/-- A position behind which a name does not occur parts the list into what is before and behind. -/
theorem eq_append_of_last {name : String} {names : List String} {i : Nat}
    (hi : names[i]? = some name) (hlast : ∀ j, i < j → names[j]? ≠ some name) :
    ∃ before behind, names = before ++ name :: behind ∧ before.length = i ∧ name ∉ behind := by
  obtain ⟨hlt, hname⟩ := List.getElem?_eq_some_iff.mp hi
  refine ⟨names.take i, names.drop (i + 1), ?_, ?_, ?_⟩
  · rw [← hname, List.getElem_cons_drop, List.take_append_drop]
  · rw [List.length_take]
    omega
  · intro hmem
    obtain ⟨j, hj⟩ := List.mem_iff_getElem?.mp hmem
    rw [List.getElem?_drop] at hj
    exact hlast (i + 1 + j) (by omega) hj

/-- A name that is listed once does not come again. -/
theorem not_later_of_nodup {names : List String} (hnodup : names.Nodup) {name : String} {k : Nat}
    (hk : names[k]? = some name) : ∀ j, k < j → names[j]? ≠ some name := by
  intro j hj hname
  obtain ⟨hlt, -⟩ := List.getElem?_eq_some_iff.mp hk
  have heq : k = j := (List.getElem?_inj hlt hnodup).mp (hk.trans hname.symm)
  omega

namespace Assignment

variable {names : List String}

/-- **A number has an assignment if it has no more digits than there are names.** -/
theorem make_eq_ok_iff {index : Int} {a : Assignment} :
    make names index = .ok a ↔
      ∃ i : Nat, index = i ∧ i < 2 ^ names.length ∧ a = assignmentAt names i := by
  unfold make makeWith assignmentAt assignmentCount
  constructor
  · intro h
    split at h
    · rename_i hrange
      cases h
      refine ⟨index.toNat, by omega, ?_, rfl⟩
      exact (Int.toNat_lt hrange.1).mpr hrange.2
    · cases h
  · rintro ⟨i, rfl, hi, rfl⟩
    rw [if_pos ⟨Int.natCast_nonneg i, Int.ofNat_lt.mpr hi⟩]
    rfl

/-- A name is looked up in vain exactly if it is not in the list. -/
theorem get_eq_error_iff (i : Nat) {name : String} {e : LookupError} :
    (assignmentAt names i).get name = .error e ↔ name ∉ names ∧ e = .unknown name := by
  by_cases h : name ∈ names
  · obtain ⟨before, behind, rfl, hlast⟩ := exists_last_occurrence h
    simp only [assignmentAt, get_placeTable before hlast, h, not_true_eq_false, false_and]
    exact iff_of_false nofun id
  · simp only [assignmentAt, get, lookup_placeTable_of_not_mem h, Except.error.injEq, h,
      not_false_eq_true, true_and]
    exact eq_comm

/-- The digit at the last position of a name is its value. -/
theorem get_of_last (i : Nat) {name : String} {k : Nat} (hk : names[k]? = some name)
    (hlast : ∀ j, k < j → names[j]? ≠ some name) :
    ∃ b, (assignmentAt names i).bits[k]? = some b ∧ (assignmentAt names i).get name = .ok b := by
  obtain ⟨before, behind, rfl, rfl, hbehind⟩ := eq_append_of_last hk hlast
  exact ⟨i.testBit behind.length, getElem?_bits_append before name behind _ i,
    get_placeTable before hbehind i⟩

/-- The digits of an assignment are those of its number, one for each name and the first name's the
most significant. A name in the list has the digit at its last position as its value, and no other
name has a value. -/
structure Decodes (names : List String) (index : Int) (a : Assignment) : Prop where
  names_eq : a.names = names
  length_bits : a.bits.length = names.length
  numberOf_bits : (numberOf a.bits : Int) = index
  unknown : ∀ name e, a.get name = .error e ↔ name ∉ names ∧ e = .unknown name
  last : ∀ (name : String) (k : Nat), names[k]? = some name →
    (∀ j, k < j → names[j]? ≠ some name) → ∃ b, a.bits[k]? = some b ∧ a.get name = .ok b
  only : names.Nodup → ∀ (name : String) (k : Nat), names[k]? = some name →
    ∃ b, a.bits[k]? = some b ∧ a.get name = .ok b

theorem decodes_assignmentAt {i : Nat} (h : i < 2 ^ names.length) :
    Decodes names i (assignmentAt names i) where
  names_eq := rfl
  length_bits := Assignment.length_bits _
  numberOf_bits := by
    rw [numberOf_bits_assignmentAt h]
  unknown _ _ := get_eq_error_iff i
  last _ _ := get_of_last i
  only hnodup _ _ hk := get_of_last i hk (not_later_of_nodup hnodup hk)

end Assignment

/-! ## Rows -/

theorem exists_of_mem_mapM {α β ε : Type} {g : α → Except ε β} {y : β} :
    ∀ {xs : List α} {ys : List β}, xs.mapM g = .ok ys → y ∈ ys → ∃ x ∈ xs, g x = .ok y
  | [], ys, h, hy => by
    cases h
    simp at hy
  | x :: xs, ys, h, hy => by
    rw [List.mapM_cons] at h
    obtain ⟨first, hfirst, hmore⟩ := exists_of_bind_eq_ok h
    obtain ⟨others, hothers, heq⟩ := exists_of_bind_eq_ok hmore
    cases heq
    rcases List.mem_cons.mp hy with rfl | hy
    · exact ⟨x, List.mem_cons_self, hfirst⟩
    · obtain ⟨x', hx', hgx'⟩ := exists_of_mem_mapM hothers hy
      exact ⟨x', List.mem_cons_of_mem x hx', hgx'⟩

/-- The rows share one table of places, and each of them has the assignment with its number. -/
theorem make_index_of_mem_allRows {f : Formula} {names : List String} {rows : List Row} {row : Row}
    (h : allRows f names = .ok rows) (hrow : row ∈ rows) :
    Assignment.make names row.index = .ok row.assignment := by
  obtain ⟨i, hi, hat⟩ := exists_of_mem_mapM h hrow
  obtain ⟨b, -, rfl⟩ := exists_of_map_eq_ok hat
  exact Assignment.make_eq_ok_iff.mpr ⟨i, rfl, List.mem_range.mp hi, rfl⟩

/-! ## Numbers and assignments -/

/-- **Numbers and assignments correspond, in order.** The numbers below `2 ^ n`, and no others, have
an assignment to `n` names; every list of `n` digits is that of exactly one of them, and a smaller
number has the digits that come first in the lexicographic order. The value of a name is the digit
at its last position. It makes no difference if all assignments, such as those of the rows of a
formula, share one table of places. -/
theorem assignments_numbered (names : List String) :
    (∀ index : Int, (∃ a, Assignment.make names index = .ok a) ↔
      0 ≤ index ∧ index < 2 ^ names.length) ∧
    (∀ (index : Int) (a : Assignment), Assignment.make names index = .ok a →
      a.Decodes names index) ∧
    (∀ bits : List Bool, bits.length = names.length →
      ∃! index : Int, ∃ a, Assignment.make names index = .ok a ∧ a.bits = bits) ∧
    (∀ (index index' : Int) (a a' : Assignment), Assignment.make names index = .ok a →
      Assignment.make names index' = .ok a' → (index < index' ↔ a.bits < a'.bits)) ∧
    (∀ index : Int, Assignment.makeWith names index (placeTable names) =
      Assignment.make names index) ∧
    ∀ (f : Formula) (rows : List Row), allRows f names = .ok rows →
      ∀ row ∈ rows, Assignment.make names row.index = .ok row.assignment := by
  refine ⟨?_, ?_, ?_, ?_, fun index => rfl, fun f rows h row hrow =>
    make_index_of_mem_allRows h hrow⟩
  · intro index
    constructor
    · rintro ⟨a, h⟩
      obtain ⟨i, rfl, hi, -⟩ := Assignment.make_eq_ok_iff.mp h
      exact ⟨Int.natCast_nonneg i, by exact_mod_cast hi⟩
    · rintro ⟨hnonneg, hlt⟩
      obtain ⟨i, rfl⟩ := Int.eq_ofNat_of_zero_le hnonneg
      exact ⟨_, Assignment.make_eq_ok_iff.mpr ⟨i, rfl, by exact_mod_cast hlt, rfl⟩⟩
  · intro index a h
    obtain ⟨i, rfl, hi, rfl⟩ := Assignment.make_eq_ok_iff.mp h
    exact Assignment.decodes_assignmentAt hi
  · intro bits hlen
    have hlt : numberOf bits < 2 ^ names.length := hlen ▸ numberOf_lt bits
    refine ⟨numberOf bits, ?_, ?_⟩
    · exact ⟨_, Assignment.make_eq_ok_iff.mpr ⟨_, rfl, hlt, rfl⟩, Assignment.bits_numberOf _ hlen⟩
    · rintro index ⟨a, h, rfl⟩
      obtain ⟨i, rfl, hi, rfl⟩ := Assignment.make_eq_ok_iff.mp h
      exact (Assignment.decodes_assignmentAt hi).numberOf_bits.symm
  · intro index index' a a' h h'
    obtain ⟨i, rfl, hi, rfl⟩ := Assignment.make_eq_ok_iff.mp h
    obtain ⟨i', rfl, hi', rfl⟩ := Assignment.make_eq_ok_iff.mp h'
    have hd := Assignment.decodes_assignmentAt hi
    have hd' := Assignment.decodes_assignmentAt hi'
    rw [← numberOf_lt_iff (hd.length_bits.trans hd'.length_bits.symm), ← hd.numberOf_bits,
      ← hd'.numberOf_bits]
    omega

/-- The assignments to three names, of which the first and the last are the same: number 8 is too
large, and number 3 has the digits 011. -/
theorem assignments_numbered_repeated :
    let names := ["p", "q", "p"]
    (¬ ∃ a, Assignment.make names 8 = .ok a) ∧
    ∃ a, Assignment.make names 3 = .ok a ∧ a.bits = [false, true, true] ∧
      a.get "p" = .ok true ∧ a.get "r" = .error (.unknown "r") ∧
      ∀ a', Assignment.make names 5 = .ok a' → a.bits < a'.bits := by
  intro names
  obtain ⟨hrange, hdecodes, -, horder, -, -⟩ := assignments_numbered names
  obtain ⟨a, ha⟩ := (hrange 3).mpr (by decide)
  have hd := hdecodes 3 a ha
  have hbits : a.bits = [false, true, true] := by
    refine numberOf_inj hd.length_bits ?_
    exact_mod_cast hd.numberOf_bits
  refine ⟨fun h => absurd ((hrange 8).mp h) (by decide), a, ha, hbits, ?_, ?_, ?_⟩
  · have hlast : ∀ j, 2 < j → names[j]? ≠ some "p" := by
      intro j hj
      have hnone : names[j]? = none := List.getElem?_eq_none hj
      rw [hnone]
      exact nofun
    obtain ⟨b, hb, hget⟩ := hd.last "p" 2 rfl hlast
    rw [hbits] at hb
    cases hb
    exact hget
  · exact (hd.unknown "r" _).mpr ⟨by decide, rfl⟩
  · intro a' ha'
    exact (horder 3 5 a a' ha ha').mp (by decide)

end Propositional
