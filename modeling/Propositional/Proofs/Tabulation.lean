import Mathlib.Logic.ExistsUnique
import Propositional.Proofs.Digits
import Propositional.Proofs.Evaluation
import Propositional.Proofs.TextReading
import Propositional.Table.Basic

/-!
# The rows of a table

* `allRows_eq` — the rows of a proper formula over names that cover its variables.
* `RowCursor.pullMany_eq` — rows that are asked for one at a time are the same rows.
* `generate_rows` — the table of a text has one row for every assignment, with the truth of the
  formula under it.
-/

namespace Propositional

/-- The formulas of a language are proper. -/
theorem Formula.Expressible.proper {classes : List TokenClass} : ∀ {f : Formula},
    f.Expressible classes → f.Proper
  | .var _, _ => trivial
  | .unary _ _, ⟨rfl, hf⟩ => ⟨rfl, hf.proper⟩
  | .binary _ _ _, ⟨hk, _, hl, hr⟩ => ⟨hk, hl.proper, hr.proper⟩
  | .foreign _, h => h

/-! ## One row -/

/-- The assignment with the given number, with the digit places of its names. -/
def assignmentAt (names : List String) (i : Nat) : Assignment := ⟨names, placeTable names, i⟩

/-- The values that an assignment gives; a name without a value is false. -/
def Assignment.valuation (a : Assignment) (name : String) : Bool :=
  match a.get name with
  | .ok b => b
  | .error _ => false

theorem Assignment.valuation_of_get {a : Assignment} {name : String} {b : Bool}
    (h : a.get name = .ok b) : a.valuation name = b := by
  unfold valuation
  rw [h]

theorem numberOf_bits_assignmentAt {names : List String} {i : Nat} (h : i < 2 ^ names.length) :
    numberOf (assignmentAt names i).bits = i :=
  Assignment.numberOf_bits h

/-- The row that a formula has for an assignment. -/
def rowOf (f : Formula) (names : List String) (i : Nat) : Row :=
  ⟨i, assignmentAt names i, decide (f.Holds (assignmentAt names i).valuation)⟩

theorem read_environment {names : List String} (i : Nat) {name : String} (h : name ∈ names) :
    (assignmentAt names i).environment.read name = .ok ((assignmentAt names i).valuation name) := by
  obtain ⟨before, behind, rfl, hlast⟩ := exists_last_occurrence h
  have hget := Assignment.get_placeTable before hlast i
  unfold Environment.read Assignment.environment Assignment.valuation assignmentAt
  rw [hget]
  rfl

theorem rowAt_eq {f : Formula} {names : List String} (hf : f.Proper)
    (hcover : ∀ x ∈ f.occurrences, x ∈ names) (i : Nat) :
    rowAt f.bottomUp names (placeTable names) i = .ok (rowOf f names i) := by
  have htruth := Formula.truth_of_proper hf fun x hx => read_environment i (hcover x hx)
  rw [← Formula.evaluate_eq_truth, Formula.evaluate] at htruth
  show (evaluatePolish (assignmentAt names i).environment f.bottomUp).map _ = _
  rw [htruth]
  rfl

/-- The result of a row is the truth of the formula when the names have the values of the digits. -/
theorem rowOf_result {f : Formula} {names : List String} (hcover : ∀ x ∈ f.occurrences, x ∈ names)
    {i : Nat} {ρ : String → Bool} (h : (rowOf f names i).assignment.bits = names.map ρ) :
    (rowOf f names i).result = true ↔ f.Holds ρ := by
  have hvaluation : ∀ x ∈ f.occurrences, (assignmentAt names i).valuation x = ρ x := by
    intro x hx
    exact Assignment.valuation_of_get (Assignment.get_of_bits h (hcover x hx))
  rw [← Formula.holds_congr hvaluation]
  exact decide_eq_true_iff

/-! ## All rows -/

theorem mapM_ok {α β ε : Type} {g : α → Except ε β} {k : α → β} : ∀ {xs : List α},
    (∀ x ∈ xs, g x = .ok (k x)) → xs.mapM g = .ok (xs.map k)
  | [], _ => rfl
  | x :: xs, h => by
    rw [List.mapM_cons, h x (by simp), mapM_ok fun y hy => h y (List.mem_cons_of_mem x hy)]
    rfl

/-- **Every row of a proper formula over names that cover its variables can be evaluated.** -/
theorem allRows_eq {f : Formula} {names : List String} (hf : f.Proper)
    (hcover : ∀ x ∈ f.occurrences, x ∈ names) :
    allRows f names = .ok ((List.range (2 ^ names.length)).map (rowOf f names)) :=
  mapM_ok fun i _ => rowAt_eq hf hcover i

/-- Rows that can all be evaluated come one after the other, from the place of the cursor on. -/
theorem RowCursor.pullMany_eq {k : Nat → Row} : ∀ (n : Nat) {c : RowCursor}, c.closed = false →
    (∀ i, rowAt c.nodes c.names c.places i = .ok (k i)) →
      (c.pullMany n).1 = .ok ((List.range' c.next (min n (2 ^ c.names.length - c.next))).map k)
  | 0, c, _, _ => by
    rw [Nat.zero_min]
    rfl
  | n + 1, c, hopen, hrows => by
    by_cases hend : assignmentCount c.names.length ≤ c.next
    · have hnone : 2 ^ c.names.length - c.next = 0 := Nat.sub_eq_zero_of_le hend
      have hpull : c.pull = (.ok none, { c with closed := true }) := by simp [pull, hend]
      rw [pullMany, hpull, hnone, Nat.min_zero]
      rfl
    · have hlt : c.next < 2 ^ c.names.length := Nat.lt_of_not_le hend
      have hpull : c.pull = (.ok (some (k c.next)), { c with next := c.next + 1 }) := by
        simp [pull, hopen, hend, hrows]
      have hmore := @pullMany_eq k n { c with next := c.next + 1 } hopen hrows
      have hcount : min (n + 1) (2 ^ c.names.length - c.next) =
          min n (2 ^ c.names.length - (c.next + 1)) + 1 := by omega
      rw [pullMany, hpull, hcount, List.range'_succ, List.map_cons]
      show ((pullMany { c with next := c.next + 1 } n).1).map _ = _
      rw [hmore]
      rfl

theorem pullMany_start {f : Formula} {names : List String} (hf : f.Proper)
    (hcover : ∀ x ∈ f.occurrences, x ∈ names) (n : Nat) :
    ((RowCursor.start f names).pullMany n).1 =
      .ok (((List.range (2 ^ names.length)).map (rowOf f names)).take n) := by
  have hpull := @RowCursor.pullMany_eq (rowOf f names) n (.start f names) rfl (rowAt_eq hf hcover)
  rw [hpull, ← List.map_take, List.take_range, List.range_eq_range']
  rfl

/-! ## Truth tables -/

/-- The rows are the truth table of a formula with a column for each of the names. -/
structure IsTruthTable (f : Formula) (names : List String) (rows : List Row) : Prop where
  length : rows.length = 2 ^ names.length
  /-- Rows are numbered from zero, and their digits are those of their numbers. -/
  index : ∀ (i : Nat) (row : Row), rows[i]? = some row →
    row.index = i ∧ row.assignment.bits.length = names.length ∧ numberOf row.assignment.bits = i
  /-- Every assignment is that of one row. -/
  once : ∀ bits : List Bool, bits.length = names.length →
    ∃! i : Nat, ∃ row : Row, rows[i]? = some row ∧ row.assignment.bits = bits
  /-- A row gives its digits to the names as their values, and its result is the truth of the formula
  under them. -/
  result : ∀ row ∈ rows, (∃ ρ : String → Bool, row.assignment.bits = names.map ρ) ∧
    ∀ ρ : String → Bool, row.assignment.bits = names.map ρ → (row.result = true ↔ f.Holds ρ)

theorem getElem?_rows {f : Formula} {names : List String} {i : Nat} {row : Row} :
    ((List.range (2 ^ names.length)).map (rowOf f names))[i]? = some row ↔
      i < 2 ^ names.length ∧ row = rowOf f names i := by
  rw [List.getElem?_map, Option.map_eq_some_iff]
  constructor
  · rintro ⟨j, hj, rfl⟩
    rw [List.getElem?_eq_some_iff] at hj
    obtain ⟨hlt, heq⟩ := hj
    rw [List.getElem_range] at heq
    rw [List.length_range] at hlt
    exact ⟨hlt, by rw [heq]⟩
  · rintro ⟨hlt, rfl⟩
    exact ⟨i, by rw [List.getElem?_range hlt], rfl⟩

/-- **The rows of a formula over distinct names are its truth table.** -/
theorem isTruthTable_rows {f : Formula} {names : List String} (hnodup : names.Nodup)
    (hcover : ∀ x ∈ f.occurrences, x ∈ names) :
    IsTruthTable f names ((List.range (2 ^ names.length)).map (rowOf f names)) where
  length := by rw [List.length_map, List.length_range]
  index i row hrow := by
    obtain ⟨hlt, rfl⟩ := getElem?_rows.mp hrow
    exact ⟨rfl, Assignment.length_bits _, numberOf_bits_assignmentAt hlt⟩
  once bits hlen := by
    have hlt : numberOf bits < 2 ^ names.length := hlen ▸ numberOf_lt bits
    refine ⟨numberOf bits, ?_, ?_⟩
    · exact ⟨_, getElem?_rows.mpr ⟨hlt, rfl⟩, Assignment.bits_numberOf (placeTable names) hlen⟩
    · rintro i ⟨row, hrow, rfl⟩
      obtain ⟨hi, rfl⟩ := getElem?_rows.mp hrow
      exact (numberOf_bits_assignmentAt hi).symm
  result row hrow := by
    obtain ⟨i, -, rfl⟩ := List.mem_map.mp hrow
    exact ⟨exists_valuation hnodup (Assignment.length_bits _), fun ρ hρ => rowOf_result hcover hρ⟩

/-! ## Texts -/

/-- The variables of a text are those of its formula, in order of first occurrence. -/
theorem Lexer.Standard.names_of_read {lexer : Lexer} (h : lexer.Standard) {text : String}
    {r : Reading} (hr : lexer.read text = .ok r) :
    r.names.names = r.formula.occurrences.eraseDups := by
  obtain ⟨ts, -, -, hnames, -⟩ := h.exists_isReading hr
  rw [hnames, Formula.names_eq, NameSet.names_ofList]

/-- A text that is read has a table, unless it has more variables than allowed. -/
theorem Table.generate_of_read {lexer : Lexer} {text : String} {r : Reading}
    (hr : lexer.read text = .ok r) (limit : Int) :
    Table.generate lexer text limit =
      if limit < r.names.names.length then
        .error (.tooManyVariables ⟨r.names.names.length, limit⟩)
      else .ok ⟨text, r.formula, .growing r.names⟩ := by
  unfold Table.generate
  rw [hr]
  show ((checkCount r.names.names.length limit).map _).mapError _ = _
  unfold checkCount
  split <;> rfl

/-- **The table of a text is the truth table of its formula.** It is refused exactly if there are
more variables than allowed. Otherwise its columns are the variables in order of first occurrence,
and every row can be evaluated, all at once or one after the other. -/
theorem generate_rows {lexer : Lexer} (hlexer : lexer = .default ∨ lexer = .core) {text : String}
    {r : Reading} (hr : lexer.read text = .ok r) (limit : Int) :
    let names := r.formula.occurrences.eraseDups
    (∀ e, Table.generate lexer text limit = .error e ↔
      limit < names.length ∧ e = .tooManyVariables ⟨names.length, limit⟩) ∧
    (names.length ≤ limit → ∃ t rows, Table.generate lexer text limit = .ok t ∧ t.names = names ∧
      t.rows = .ok rows ∧ (∀ n, (t.openRows.pullMany n).1 = .ok (rows.take n)) ∧
      IsTruthTable r.formula names rows) := by
  intro names
  have h : lexer.Standard := Lexer.standard_of_eq hlexer
  have hlist : r.names.names = names := h.names_of_read hr
  obtain ⟨ts, -, -, hnames, hf⟩ := h.exists_isReading hr
  have hnodup : names.Nodup := by
    rw [← hlist, hnames, Formula.names_eq]
    exact NameSet.nodup_ofList _
  have hcover : ∀ x ∈ r.formula.occurrences, x ∈ names := fun x hx => List.mem_eraseDups.mpr hx
  rw [Table.generate_of_read hr, hlist]
  refine ⟨fun e => ?_, fun hle => ?_⟩
  · by_cases hlimit : limit < names.length
    · rw [if_pos hlimit, Except.error.injEq]
      exact ⟨fun he => ⟨hlimit, he.symm⟩, fun he => he.2.symm⟩
    · rw [if_neg hlimit]
      exact ⟨nofun, fun he => absurd he.1 hlimit⟩
  · rw [if_neg (by omega)]
    refine ⟨_, _, rfl, hlist, ?_, ?_, isTruthTable_rows hnodup hcover⟩
    · show allRows r.formula r.names.names = _
      rw [hlist]
      exact allRows_eq hf.proper hcover
    · intro n
      show ((RowCursor.start r.formula r.names.names).pullMany n).1 = _
      rw [hlist]
      exact pullMany_start hf.proper hcover n

theorem generate_rows_implication :
    (Lexer.default = .default ∨ Lexer.default = .core) ∧
    (∃ r, Lexer.default.read "b => a" = .ok r ∧ r.formula = .binary .implies (.var "b") (.var "a")) ∧
    Table.generate .default "b => a" 1 = .error (.tooManyVariables ⟨2, 1⟩) ∧
    ∃ t rows, Table.generate .default "b => a" 2 = .ok t ∧ t.rows = .ok rows ∧
      IsTruthTable (.binary .implies (.var "b") (.var "a")) ["b", "a"] rows := by
  have hlexer : Lexer.default = .default ∨ Lexer.default = .core := .inl rfl
  obtain ⟨r, hr, hf⟩ : ∃ r, Lexer.default.read "b => a" = .ok r ∧
      r.formula = .binary .implies (.var "b") (.var "a") := ⟨_, rfl, rfl⟩
  have hnames : r.formula.occurrences.eraseDups = ["b", "a"] := by
    rw [hf]
    decide
  have hone := (generate_rows hlexer hr 1).1
  have htwo := (generate_rows hlexer hr 2).2
  rw [hnames] at hone htwo
  rw [hf] at htwo
  obtain ⟨t, rows, ht, -, hrows, -, htable⟩ := htwo (by decide)
  exact ⟨hlexer, ⟨r, hr, hf⟩, (hone _).mpr ⟨by decide, rfl⟩, t, rows, ht, hrows, htable⟩

end Propositional
