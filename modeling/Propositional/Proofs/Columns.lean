import Mathlib.Data.List.Basic
import Mathlib.Logic.Equiv.Defs
import Propositional.Proofs.Numbering

/-!
# Other columns

The result of a row depends on the digits of the formula's variables only. So the same function is
tabulated over any names that cover the formula.

* `Row.digit?` — the digit that a row has for a name.
* `Formula.HasRows` — the rows of a formula over some names, one at a time or all at once.
* `result_congr`, `result_eq_of_digits` — rows that agree on the variables of the formula have one
  result.
* `renumber` — the number of the assignment to other names that gives them the same values.
* `renumbering` — for names in another order, this permutes the numbers.
* `bits_append_singleton`, `result_append_singleton` — one more name makes two rows of each.
* `rows_over_other_columns` — all this of the rows that are given.
-/

namespace Propositional

/-! ## Values and digits -/

/-- The digit under the first column with the name. -/
def Row.digit? (row : Row) (name : String) : Option Bool :=
  row.assignment.bits[row.assignment.names.idxOf name]?

/-- The place of a name's digit, counted from the least significant one. -/
def digitPlace (names : List String) (name : String) : Nat := names.length - 1 - names.idxOf name

theorem valuation_of_last {names before behind : List String} {name : String} (i : Nat)
    (heq : names = before ++ name :: behind) (hlast : name ∉ behind) :
    (assignmentAt names i).valuation name = i.testBit behind.length := by
  subst heq
  exact Assignment.valuation_of_get (Assignment.get_placeTable before hlast i)

theorem Assignment.getElem?_bits (a : Assignment) {k : Nat} (h : k < a.names.length) :
    a.bits[k]? = some (a.index.testBit (a.names.length - 1 - k)) := by
  simp [bits, h]

section

variable {names : List String} (hnodup : names.Nodup) {name : String} (hname : name ∈ names)
include hnodup hname

/-- A name that is listed once has its digit as its value. -/
theorem getElem?_bits_idxOf (i : Nat) :
    (assignmentAt names i).bits[names.idxOf name]? =
      some ((assignmentAt names i).valuation name) := by
  have hk : names[names.idxOf name]? = some name := List.getElem?_idxOf hname
  obtain ⟨b, hb, hget⟩ := Assignment.get_of_last i hk (not_later_of_nodup hnodup hk)
  rw [hb, Assignment.valuation_of_get hget]

theorem valuation_eq_testBit (i : Nat) :
    (assignmentAt names i).valuation name = i.testBit (digitPlace names name) := by
  have hindex : names.idxOf name < (assignmentAt names i).names.length :=
    List.idxOf_lt_length_of_mem hname
  have hdigit := Assignment.getElem?_bits (assignmentAt names i) hindex
  rw [getElem?_bits_idxOf hnodup hname i] at hdigit
  exact Option.some.inj hdigit

end

/-- A row has the value of a name as its digit. -/
theorem digit?_rowOf {f : Formula} {names : List String} (hnodup : names.Nodup) {name : String}
    (hname : name ∈ names) (i : Nat) :
    (rowOf f names i).digit? name = some ((assignmentAt names i).valuation name) :=
  getElem?_bits_idxOf hnodup hname i

/-- The digits for distinct names are their values. -/
theorem bits_eq_map_valuation {names : List String} (hnodup : names.Nodup) (i : Nat) :
    (assignmentAt names i).bits = names.map (assignmentAt names i).valuation := by
  have hlength : (assignmentAt names i).bits.length = names.length := Assignment.length_bits _
  obtain ⟨ρ, hρ⟩ := exists_valuation hnodup hlength
  rw [hρ]
  exact List.map_congr_left fun x hx =>
    (Assignment.valuation_of_get (Assignment.get_of_bits hρ hx)).symm

/-! ## The rows of a formula -/

/-- These are the rows that are given, one at a time or all at once, unless there are more names
than allowed. -/
structure Formula.HasRows (f : Formula) (names : List String) (rows : List Row) : Prop where
  pulled : ∀ limit : Int, names.length ≤ limit →
    ∃ c, openRows f names limit = .ok c ∧ ∀ n, (c.pullMany n).1 = .ok (rows.take n)
  built : ∀ limit : Int, names.length ≤ limit → buildRows f (some names) limit = .ok rows

theorem Formula.CoveredBy.hasRows {f : Formula} {names : List String} (h : f.CoveredBy names) :
    f.HasRows names ((List.range (2 ^ names.length)).map (rowOf f names)) where
  pulled limit hlimit :=
    ⟨.start f names, openRows_of_le hlimit, pullMany_start h.proper h.mem⟩
  built limit hlimit := by
    have hbuild : buildRows f (some names) limit = (allRows f names).mapError .eval :=
      buildRows_of_le hlimit
    rw [hbuild, allRows_eq h.proper h.mem]
    rfl

/-- **The result depends on the values of the formula's variables only**, whatever the names of the
columns are. -/
theorem result_congr {f : Formula} {names names' : List String} {i j : Nat}
    (h : ∀ x ∈ f.occurrences,
      (assignmentAt names i).valuation x = (assignmentAt names' j).valuation x) :
    (rowOf f names i).result = (rowOf f names' j).result :=
  decide_eq_decide.mpr (Formula.holds_congr h)

/-- Two rows with the same digits for the variables have one result. -/
theorem result_eq_of_digits {f : Formula} {names names' : List String} (hf : f.CoveredBy names)
    (hnodup : names.Nodup) (hf' : f.CoveredBy names') (hnodup' : names'.Nodup) {row row' : Row}
    (hrow : row ∈ (List.range (2 ^ names.length)).map (rowOf f names))
    (hrow' : row' ∈ (List.range (2 ^ names'.length)).map (rowOf f names'))
    (hdigits : ∀ x ∈ f.occurrences, row.digit? x = row'.digit? x) : row.result = row'.result := by
  obtain ⟨i, -, rfl⟩ := List.mem_map.mp hrow
  obtain ⟨j, -, rfl⟩ := List.mem_map.mp hrow'
  refine result_congr ?_
  intro x hx
  have hx' := hdigits x hx
  rw [digit?_rowOf hnodup (hf.mem x hx), digit?_rowOf hnodup' (hf'.mem x hx)] at hx'
  exact Option.some.inj hx'

/-! ## Names in another order -/

/-- The number of the assignment that gives other names the values that they have. -/
def renumber (names names' : List String) (i : Nat) : Nat :=
  numberOf (names'.map (assignmentAt names i).valuation)

theorem renumber_lt (names names' : List String) (i : Nat) :
    renumber names names' i < 2 ^ names'.length := by
  have hlt := numberOf_lt (names'.map (assignmentAt names i).valuation)
  rwa [List.length_map] at hlt

theorem valuation_renumber {names names' : List String} (i : Nat) {x : String} (hx : x ∈ names') :
    (assignmentAt names' (renumber names names' i)).valuation x =
      (assignmentAt names i).valuation x := by
  have hbits : (assignmentAt names' (renumber names names' i)).bits =
      names'.map (assignmentAt names i).valuation :=
    Assignment.bits_numberOf (placeTable names') (List.length_map ..)
  exact Assignment.valuation_of_get (Assignment.get_of_bits hbits hx)

/-- Nothing is lost on the way to names that include the old ones. -/
theorem renumber_renumber {names names' : List String} (hnodup : names.Nodup)
    (hsub : names ⊆ names') {i : Nat} (hi : i < 2 ^ names.length) :
    renumber names' names (renumber names names' i) = i := by
  have hvalues : names.map (assignmentAt names' (renumber names names' i)).valuation =
      names.map (assignmentAt names i).valuation :=
    List.map_congr_left fun x hx => valuation_renumber i (hsub hx)
  rw [renumber, hvalues, ← bits_eq_map_valuation hnodup, numberOf_bits_assignmentAt hi]

/-- **The same names in another order permute the numbers of the assignments.** -/
def renumbering {names names' : List String} (hnodup : names.Nodup) (h : names'.Perm names) :
    Equiv.Perm (Fin (2 ^ names.length)) where
  toFun i := ⟨renumber names names' i, by
    have hlt := renumber_lt names names' i
    rwa [h.length_eq] at hlt⟩
  invFun i := ⟨renumber names' names i, renumber_lt names' names i⟩
  left_inv i := Fin.ext (renumber_renumber hnodup h.symm.subset i.isLt)
  right_inv i := by
    have hi : i.val < 2 ^ names'.length := by
      rw [h.length_eq]
      exact i.isLt
    exact Fin.ext (renumber_renumber (h.nodup_iff.mpr hnodup) h.subset hi)

@[simp] theorem renumbering_val {names names' : List String} (hnodup : names.Nodup)
    (h : names'.Perm names) (i : Fin (2 ^ names.length)) :
    (renumbering hnodup h i).val = renumber names names' i := rfl

/-- The digit of every name goes from its old place to its new one. -/
theorem testBit_renumbering {names names' : List String} (hnodup : names.Nodup)
    (h : names'.Perm names) (i : Fin (2 ^ names.length)) {x : String} (hx : x ∈ names) :
    (renumbering hnodup h i).val.testBit (digitPlace names' x) =
      i.val.testBit (digitPlace names x) := by
  have hx' : x ∈ names' := h.mem_iff.mpr hx
  rw [renumbering_val, ← valuation_eq_testBit hnodup hx,
    ← valuation_eq_testBit (h.nodup_iff.mpr hnodup) hx']
  exact valuation_renumber i.val hx'

/-! ## One more name -/

theorem numberOf_append_singleton (bits : List Bool) (b : Bool) :
    numberOf (bits ++ [b]) = 2 * numberOf bits + b.toNat := by
  simp [numberOf]

/-- One more name is one more digit behind the others. -/
theorem bits_append_singleton {names : List String} (x : String) {i : Nat}
    (hi : i < 2 ^ names.length) (b : Bool) :
    (assignmentAt (names ++ [x]) (2 * i + b.toNat)).bits = (assignmentAt names i).bits ++ [b] := by
  have hlength : ((assignmentAt names i).bits ++ [b]).length = (names ++ [x]).length := by
    simp [assignmentAt]
  have hbits := Assignment.bits_numberOf (placeTable (names ++ [x])) hlength
  rw [numberOf_append_singleton, numberOf_bits_assignmentAt hi] at hbits
  exact hbits

/-- The other names keep their values. -/
theorem valuation_append_singleton {names : List String} {x y : String} (hy : y ∈ names)
    (hne : y ≠ x) (i : Nat) (b : Bool) :
    (assignmentAt (names ++ [x]) (2 * i + b.toNat)).valuation y =
      (assignmentAt names i).valuation y := by
  obtain ⟨before, behind, heq, hlast⟩ := exists_last_occurrence hy
  have heq' : names ++ [x] = before ++ y :: (behind ++ [x]) := by simp [heq]
  have hlast' : y ∉ behind ++ [x] := by simp [hlast, hne]
  have hhalf : (2 * i + b.toNat) / 2 = i := by
    have hb := b.toNat_lt
    omega
  rw [valuation_of_last _ heq' hlast', valuation_of_last i heq hlast, List.length_append,
    List.length_singleton, Nat.testBit_succ, hhalf]

/-- A name that is not a variable of the formula changes no result. -/
theorem result_append_singleton {f : Formula} {names : List String} (hf : f.CoveredBy names)
    {x : String} (hx : x ∉ f.occurrences) (i : Nat) (b : Bool) :
    (rowOf f (names ++ [x]) (2 * i + b.toNat)).result = (rowOf f names i).result := by
  refine result_congr ?_
  intro y hy
  have hne : y ≠ x := by
    rintro rfl
    exact hx hy
  exact valuation_append_singleton (hf.mem y hy) hne i b

/-! ## Other columns -/

/-- **Other columns show the same function.** Rows that have the same digits for the formula's
variables have the same result. If the columns come in another order, then the rows do so too: their
numbers are permuted as the digits are. One more column, which is not for a variable of the formula,
makes two rows of each, one with either digit at the end, and both with its result. -/
theorem rows_over_other_columns {f : Formula} {names : List String} (hf : f.CoveredBy names)
    (hnodup : names.Nodup) :
    ∃ rows, f.HasRows names rows ∧ rows.length = 2 ^ names.length ∧
      (∀ names' : List String, f.CoveredBy names' → names'.Nodup →
        ∃ rows', f.HasRows names' rows' ∧ rows'.length = 2 ^ names'.length ∧
          ∀ row ∈ rows, ∀ row' ∈ rows', (∀ x ∈ f.occurrences, row.digit? x = row'.digit? x) →
            row.result = row'.result) ∧
      (∀ names' : List String, names'.Perm names →
        ∃ rows', f.HasRows names' rows' ∧ ∃ π : Equiv.Perm (Fin (2 ^ names.length)),
          (∀ i, ∀ x ∈ names, (π i).val.testBit (digitPlace names' x) =
            i.val.testBit (digitPlace names x)) ∧
          ∀ i, ∃ row row', rows[i.val]? = some row ∧ rows'[(π i).val]? = some row' ∧
            row'.result = row.result) ∧
      ∀ x ∉ f.occurrences, ∃ rows', f.HasRows (names ++ [x]) rows' ∧
        rows'.length = 2 * rows.length ∧ ∀ i row, rows[i]? = some row → ∀ b : Bool,
          ∃ row', rows'[2 * i + b.toNat]? = some row' ∧
            row'.assignment.bits = row.assignment.bits ++ [b] ∧ row'.result = row.result := by
  refine ⟨_, hf.hasRows, by simp, ?_, ?_, ?_⟩
  · intro names' hf' hnodup'
    exact ⟨_, hf'.hasRows, by simp, fun row hrow row' hrow' =>
      result_eq_of_digits hf hnodup hf' hnodup' hrow hrow'⟩
  · intro names' hperm
    have hf' : f.CoveredBy names' := hf.mono hperm.symm.subset
    refine ⟨_, hf'.hasRows, renumbering hnodup hperm, ?_, ?_⟩
    · intro i x hx
      exact testBit_renumbering hnodup hperm i hx
    · intro i
      refine ⟨_, _, getElem?_rows.mpr ⟨i.isLt, rfl⟩,
        getElem?_rows.mpr ⟨renumber_lt names names' i, rfl⟩, ?_⟩
      exact result_congr fun x hx => valuation_renumber i.val (hf'.mem x hx)
  · intro x hx
    have hf' : f.CoveredBy (names ++ [x]) := hf.mono (List.subset_append_left names [x])
    refine ⟨_, hf'.hasRows, by simp [Nat.pow_succ, Nat.mul_comm], ?_⟩
    intro i row hrow b
    obtain ⟨hi, rfl⟩ := getElem?_rows.mp hrow
    have hlt : 2 * i + b.toNat < 2 ^ (names ++ [x]).length := by
      have hb := b.toNat_lt
      rw [List.length_append, List.length_singleton, Nat.pow_succ]
      omega
    exact ⟨_, getElem?_rows.mpr ⟨hlt, rfl⟩, bits_append_singleton x hi b,
      result_append_singleton hf hx i b⟩

/-- If the columns of `b => a` change places, then so do its rows 1 and 2. A column for `c` makes
eight rows of the four. -/
theorem rows_over_other_columns_implication :
    let f : Formula := .binary .implies (.var "b") (.var "a")
    f.CoveredBy ["b", "a"] ∧ ["b", "a"].Nodup ∧ ["a", "b"].Perm ["b", "a"] ∧
    ∃ rows rows' more, f.HasRows ["b", "a"] rows ∧ f.HasRows ["a", "b"] rows' ∧
      f.HasRows ["b", "a", "c"] more ∧ more.length = 8 ∧
      ∃ row row', rows[1]? = some row ∧ rows'[2]? = some row' ∧ row'.result = row.result := by
  intro f
  have hf : f.CoveredBy ["b", "a"] :=
    .binary rfl (Formula.coveredBy_var (by decide)) (Formula.coveredBy_var (by decide))
  have hnodup : ["b", "a"].Nodup := by decide
  have hperm : ["a", "b"].Perm ["b", "a"] := .swap "b" "a" []
  obtain ⟨rows, hrows, hlength, -, hother, hmore⟩ := rows_over_other_columns hf hnodup
  obtain ⟨rows', hrows', π, hπ, hresults⟩ := hother ["a", "b"] hperm
  obtain ⟨more, hhasMore, hlengthMore, -⟩ := hmore "c" (by decide)
  obtain ⟨row, row', hrow, hrow', hresult⟩ := hresults 1
  have hone : π 1 = 2 := by
    have hb := hπ 1 "b" (by decide)
    have ha := hπ 1 "a" (by decide)
    generalize π 1 = j at hb ha
    revert j
    decide
  rw [hone] at hrow'
  exact ⟨hf, hnodup, hperm, rows, rows', more, hrows, hrows', hhasMore,
    by rw [hlengthMore, hlength]; rfl, row, row', hrow, hrow', hresult⟩

end Propositional
