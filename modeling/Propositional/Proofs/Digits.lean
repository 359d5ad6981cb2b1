import Mathlib.Algebra.Ring.Nat
import Propositional.Assignment

/-!
# Assignments and their numbers

* `numberOf` — the number that binary digits stand for, the most significant digit first.
* `numberOf_bits`, `bits_numberOf` — an assignment has the digits of its number.
* `lookup_placeTable` — the place of a name is the number of names behind its last occurrence.
* `Assignment.get_of_bits` — looking a name up gives the digit at its position.
-/

namespace Propositional

/-! ## Binary digits -/

/-- The number that digits stand for, the most significant one first. -/
def numberOf (bits : List Bool) : Nat := bits.foldl (fun m b => 2 * m + b.toNat) 0

theorem toNat_testBit (m i : Nat) : (m.testBit i).toNat = m / 2 ^ i % 2 := by
  rw [Nat.testBit_eq_decide_div_mod_eq]
  have hlt : m / 2 ^ i % 2 < 2 := Nat.mod_lt _ (by omega)
  by_cases h : m / 2 ^ i % 2 = 1
  · simp [h]
  · have hzero : m / 2 ^ i % 2 = 0 := by omega
    simp [hzero]

theorem foldl_digits (bits : List Bool) : ∀ m : Nat,
    bits.foldl (fun m b => 2 * m + b.toNat) m = m * 2 ^ bits.length + numberOf bits := by
  induction bits with
  | nil => simp [numberOf]
  | cons b bits ih =>
    intro m
    have hfirst := ih (2 * m + b.toNat)
    have hnone := ih (2 * 0 + b.toNat)
    rw [numberOf, List.foldl_cons, List.foldl_cons, hfirst, hnone, List.length_cons, Nat.pow_succ,
      Nat.add_mul, Nat.add_mul, Nat.mul_comm 2 m, Nat.mul_assoc, Nat.mul_comm 2 (2 ^ bits.length)]
    omega

theorem numberOf_cons (b : Bool) (bits : List Bool) :
    numberOf (b :: bits) = b.toNat * 2 ^ bits.length + numberOf bits := by
  have h := foldl_digits bits (2 * 0 + b.toNat)
  rw [Nat.mul_zero, Nat.zero_add] at h
  rw [numberOf, List.foldl_cons, Nat.mul_zero, Nat.zero_add, h]

theorem numberOf_lt : ∀ bits : List Bool, numberOf bits < 2 ^ bits.length
  | [] => by decide
  | b :: bits => by
    have ih := numberOf_lt bits
    have hb : b.toNat * 2 ^ bits.length ≤ 1 * 2 ^ bits.length :=
      Nat.mul_le_mul_right _ b.toNat_le
    rw [numberOf_cons, List.length_cons, Nat.pow_succ]
    omega

/-- Digits can be read off from their number, if it is known how many there are. -/
theorem numberOf_inj : ∀ {bs cs : List Bool}, bs.length = cs.length →
    numberOf bs = numberOf cs → bs = cs
  | [], [], _, _ => rfl
  | b :: bs, c :: cs, hlen, h => by
    have hlen' : bs.length = cs.length := Nat.succ.inj hlen
    have hbs := numberOf_lt bs
    have hcs := numberOf_lt cs
    rw [numberOf_cons, numberOf_cons, hlen'] at h
    rw [hlen'] at hbs
    have hbc : b = c := by
      cases b <;> cases c <;> simp only [Bool.toNat_true, Bool.toNat_false] at h <;>
        first | rfl | omega
    subst hbc
    rw [numberOf_inj hlen' (by omega)]

namespace Assignment

/-! ## The digits of an assignment -/

@[simp] theorem length_bits (a : Assignment) : a.bits.length = a.names.length := by
  simp [bits]

theorem bits_cons (name : String) (names : List String) (places : PlaceTable) (i : Nat) :
    (Assignment.mk (name :: names) places i).bits =
      i.testBit names.length :: (Assignment.mk names places i).bits := by
  simp only [bits, List.length_cons, List.range_succ_eq_map, List.map_cons, List.map_map]
  congr 1
  refine List.map_congr_left fun k _ => ?_
  simp only [Function.comp]
  congr 1
  omega

/-- The digit of a name belongs to the place that counts the names behind it. -/
theorem getElem?_bits_append (before : List String) (name : String) (behind : List String)
    (places : PlaceTable) (i : Nat) :
    (Assignment.mk (before ++ name :: behind) places i).bits[before.length]? =
      some (i.testBit behind.length) := by
  induction before with
  | nil => rw [List.nil_append, bits_cons]; rfl
  | cons first before ih =>
    rw [List.cons_append, bits_cons, List.length_cons, List.getElem?_cons_succ]
    exact ih

theorem numberOf_bits_eq_mod (places : PlaceTable) (i : Nat) : ∀ names : List String,
    numberOf (Assignment.mk names places i).bits = i % 2 ^ names.length
  | [] => (Nat.mod_one i).symm
  | name :: names => by
    rw [bits_cons, numberOf_cons, numberOf_bits_eq_mod places i names, length_bits, toNat_testBit,
      List.length_cons, Nat.mod_pow_succ, Nat.mul_comm (2 ^ names.length)]
    exact Nat.add_comm _ _

/-- **The digits of an assignment stand for its number.** -/
theorem numberOf_bits {a : Assignment} (h : a.index < 2 ^ a.names.length) :
    numberOf a.bits = a.index := by
  have hmod := numberOf_bits_eq_mod a.places a.index a.names
  rw [Nat.mod_eq_of_lt h] at hmod
  exact hmod

/-- **Any digits are those of the assignment with the number that they stand for.** -/
theorem bits_numberOf {names : List String} (places : PlaceTable) {bits : List Bool}
    (h : bits.length = names.length) : (Assignment.mk names places (numberOf bits)).bits = bits := by
  have hlt : numberOf bits < 2 ^ names.length := h ▸ numberOf_lt bits
  have hlen : (Assignment.mk names places (numberOf bits)).bits.length = bits.length := by
    rw [length_bits, h]
  exact numberOf_inj hlen (numberOf_bits hlt)

end Assignment

/-! ## Places -/

theorem lookup_append (table : PlaceTable) (name : String) (place : Int) (x : String) :
    (table ++ [(name, place)]).lookup x =
      (table.lookup x).or (if x == name then some place else none) := by
  induction table with
  | nil => cases hx : x == name <;> simp [List.lookup_cons, hx]
  | cons entry table ih =>
    obtain ⟨key, value⟩ := entry
    rw [List.cons_append, List.lookup_cons, List.lookup_cons, ih]
    cases x == key <;> rfl

theorem lookup_map_replace (table : PlaceTable) (name : String) (place : Int) (x : String) :
    (table.map fun entry => if entry.1 == name then (name, place) else entry).lookup x =
      if x == name then (table.lookup x).map fun _ => place else table.lookup x := by
  induction table with
  | nil => cases x == name <;> rfl
  | cons entry table ih =>
    obtain ⟨key, value⟩ := entry
    rw [List.map_cons]
    by_cases hkey : (key == name) = true
    · rw [if_pos hkey, List.lookup_cons, List.lookup_cons, ih, eq_of_beq hkey]
      cases x == name <;> rfl
    · rw [if_neg hkey, List.lookup_cons, List.lookup_cons, ih]
      cases hx : x == key with
      | false => rfl
      | true =>
        have hne : (x == name) = false := by
          rw [eq_of_beq hx]
          exact Bool.eq_false_iff.mpr hkey
        simp [hne]

theorem isSome_lookup (table : PlaceTable) (x : String) :
    (table.lookup x).isSome = table.any (·.1 == x) := by
  induction table with
  | nil => rfl
  | cons entry table ih =>
    obtain ⟨key, value⟩ := entry
    rw [List.lookup_cons, List.any_cons, ← ih, BEq.comm]
    cases key == x <;> rfl

/-- A place that was set is found, and the others are as before. -/
theorem PlaceTable.lookup_put (table : PlaceTable) (name : String) (place : Int) (x : String) :
    (table.put name place).lookup x = if x == name then some place else table.lookup x := by
  have hknown := isSome_lookup table name
  unfold put
  cases h : table.any (·.1 == name) with
  | true =>
    rw [h, Option.isSome_iff_exists] at hknown
    obtain ⟨old, hold⟩ := hknown
    rw [if_pos rfl, lookup_map_replace]
    cases hx : x == name with
    | true => simp [eq_of_beq hx, hold]
    | false => rfl
  | false =>
    rw [h, Option.isSome_eq_false_iff, Option.isNone_iff_eq_none] at hknown
    rw [if_neg Bool.false_ne_true, lookup_append]
    cases hx : x == name with
    | true => simp [eq_of_beq hx, hknown]
    | false => simp

/-- Setting the places of other names leaves the place of a name as it was. -/
theorem lookup_foldl_put_of_not_mem (place : Nat → Int) (x : String) :
    ∀ {names : List String} {k : Nat} {table : PlaceTable}, x ∉ names →
      ((names.zipIdx k).foldl (fun table entry => table.put entry.1 (place entry.2)) table).lookup x =
        table.lookup x
  | [], k, table, _ => rfl
  | name :: names, k, table, h => by
    have hne : (x == name) = false := by
      rw [beq_eq_false_iff_ne]
      rintro rfl
      exact h (List.mem_cons_self)
    have hnames : x ∉ names := fun hmem => h (List.mem_cons_of_mem name hmem)
    rw [List.zipIdx_cons, List.foldl_cons, lookup_foldl_put_of_not_mem place x hnames,
      PlaceTable.lookup_put, hne]
    rfl

/-- **The place of a name is the number of names behind its last occurrence.** -/
theorem lookup_placeTable (before : List String) {name : String} {behind : List String}
    (h : name ∉ behind) :
    (placeTable (before ++ name :: behind)).lookup name = some (behind.length : Int) := by
  unfold placeTable
  rw [List.zipIdx_append, List.foldl_append, List.zipIdx_cons, List.foldl_cons,
    lookup_foldl_put_of_not_mem (fun k => ((before ++ name :: behind).length : Int) - 1 - k) name h,
    PlaceTable.lookup_put]
  simp only [beq_self_eq_true, if_true, List.length_append, List.length_cons]
  congr 1
  omega

/-- A name that occurs has a last occurrence. -/
theorem exists_last_occurrence {name : String} {names : List String} (h : name ∈ names) :
    ∃ before behind, names = before ++ name :: behind ∧ name ∉ behind := by
  obtain ⟨before, behind, heq, hnot⟩ :=
    List.eq_append_cons_of_mem (List.mem_reverse.mpr h)
  refine ⟨behind.reverse, before.reverse, ?_, ?_⟩
  · rw [← List.reverse_reverse names, heq]
    simp
  · rwa [List.mem_reverse]

namespace Assignment

/-- **A name has the digit at its last position.** -/
theorem get_placeTable (before : List String) {name : String} {behind : List String}
    (h : name ∉ behind) (i : Nat) :
    (Assignment.mk (before ++ name :: behind) (placeTable (before ++ name :: behind)) i).get name =
      .ok (i.testBit behind.length) := by
  unfold get
  rw [lookup_placeTable before h]
  simp

/-- An assignment whose digits are the values of its names gives every name its value. -/
theorem get_of_bits {names : List String} {i : Nat} {ρ : String → Bool}
    (h : (Assignment.mk names (placeTable names) i).bits = names.map ρ) {name : String}
    (hname : name ∈ names) : (Assignment.mk names (placeTable names) i).get name = .ok (ρ name) := by
  obtain ⟨before, behind, rfl, hlast⟩ := exists_last_occurrence hname
  rw [get_placeTable before hlast]
  have hdigit := getElem?_bits_append before name behind
    (placeTable (before ++ name :: behind)) i
  have hvalue : ((before ++ name :: behind).map ρ)[before.length]? = some (ρ name) := by simp
  rw [h, hvalue, Option.some.injEq] at hdigit
  rw [hdigit]

end Assignment

/-- Digits for distinct names are the values of the names under some valuation. -/
theorem exists_valuation : ∀ {names : List String} {bits : List Bool}, names.Nodup →
    bits.length = names.length → ∃ ρ : String → Bool, bits = names.map ρ
  | [], [], _, _ => ⟨fun _ => false, rfl⟩
  | name :: names, b :: bits, hnodup, hlen => by
    obtain ⟨hname, hnodup'⟩ := List.nodup_cons.mp hnodup
    obtain ⟨ρ, rfl⟩ := exists_valuation hnodup' (Nat.succ.inj hlen)
    refine ⟨fun x => if x = name then b else ρ x, ?_⟩
    rw [List.map_cons, if_pos rfl]
    congr 1
    refine List.map_congr_left fun x hx => ?_
    have hne : x ≠ name := by
      rintro rfl
      exact hname hx
    rw [if_neg hne]

end Propositional
