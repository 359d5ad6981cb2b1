import Propositional.Proofs.FirstRow
import Propositional.Proofs.LateHeadings

/-!
# A frame holds what the lines show

A frame is filled row by row, every digit at the end of its column; the lines are laid out with a
cell for every digit. Both are given the same digits, and none is lost on either way, whatever the
headings are: they may be equal, or empty.

* `columnDigits`, `columnsOf_eq` — the digits of a column, and that the columns hold them.
* `FrameLike.columns_ofRows`, `FrameLike.labels_ofRows` — what a frame of rows holds.
* `cellsOf` — the pieces of a line between its bars; `cellsOf_line` gives those of a row.
* `Table.HoldsData` — a frame and the lines hold the digits of the rows.
* `Table.frame_agrees_with_lines` — those of a table do.
-/

namespace Propositional

/-! ## Columns -/

/-- The digits in a column, from top to bottom. -/
def columnDigits (rows : List Row) (j : Nat) : List Bool := rows.filterMap (·.digits[j]?)

theorem getElem?_addDigits : ∀ (columns : List (Array Bool)) (bits : List Bool) (j : Nat),
    (addDigits columns bits)[j]? = columns[j]?.map (· ++ bits[j]?.toArray)
  | [], bits, j => by simp [addDigits]
  | column :: columns, [], j => by simp [addDigits]
  | column :: columns, bit :: bits, 0 => by simp [addDigits]
  | column :: columns, bit :: bits, j + 1 => by
    have ih := getElem?_addDigits columns bits j
    simpa only [addDigits, List.getElem?_cons_succ] using ih

/-- **Every column gets its digits, in the order of the rows**, and no column is added or dropped. By
induction on the rows, over the columns as far as they have been filled. -/
theorem getElem?_foldl_addDigits (j : Nat) : ∀ (rows : List Row) (columns : List (Array Bool)),
    (rows.foldl (fun columns row => addDigits columns row.digits) columns)[j]? =
      columns[j]?.map (· ++ (columnDigits rows j).toArray)
  | [], columns => by simp [columnDigits]
  | row :: rows, columns => by
    rw [List.foldl_cons, getElem?_foldl_addDigits j rows, getElem?_addDigits, Option.map_map]
    congr 1
    funext column
    cases hbit : row.digits[j]? with
    | none => simp [columnDigits, hbit]
    | some bit => simp [columnDigits, hbit]

/-- The columns of some rows hold their digits, one column under each heading. -/
theorem columnsOf_eq (headings : List String) (rows : List Row) : columnsOf headings rows =
    (List.range headings.length).map fun j => (columnDigits rows j).toArray := by
  apply List.ext_getElem?
  intro j
  have hfilled := getElem?_foldl_addDigits j rows (headings.map fun _ => #[])
  rw [List.getElem?_map, Option.map_map] at hfilled
  rw [List.getElem?_map]
  show (rows.foldl (fun columns row => addDigits columns row.digits) _)[j]? = _
  rw [hfilled]
  by_cases hj : j < headings.length
  · simp [hj]
  · simp [hj]

section

variable {n j : Nat} {rows : List Row}

/-- Where every row has a digit in the column, the column has one for every row. -/
theorem getElem?_columnDigits (hj : j < n) (hrows : ∀ row ∈ rows, row.digits.length = n) (i : Nat) :
    (columnDigits rows j)[i]? = rows[i]?.bind (·.digits[j]?) := by
  induction rows generalizing i with
  | nil => simp [columnDigits]
  | cons row rows ih =>
    obtain ⟨hrow, hrows⟩ := List.forall_mem_cons.mp hrows
    have hbit : row.digits[j]? = some (row.digits[j]) := List.getElem?_eq_getElem (by omega)
    have hcons : columnDigits (row :: rows) j = row.digits[j] :: columnDigits rows j :=
      List.filterMap_cons_some hbit
    rw [hcons]
    cases i with
    | zero => simp [hbit]
    | succ i => simpa using ih hrows i

/-- All columns are as long as there are rows. -/
theorem size_of_mem_columnsOf {headings : List String}
    (hrows : ∀ row ∈ rows, row.digits.length = headings.length) {column : Array Bool}
    (hcolumn : column ∈ columnsOf headings rows) : column.size = rows.length := by
  rw [columnsOf_eq] at hcolumn
  obtain ⟨j, hj, rfl⟩ := List.mem_map.mp hcolumn
  rw [List.size_toArray, columnDigits]
  apply List.filterMap_length_eq_length.mpr
  intro row hrow
  simp [hrows row hrow, List.mem_range.mp hj]

end

/-! ## Frames -/

theorem map_snd_numbered (columns : List (Array Bool)) : (numbered columns).map (·.2) = columns := by
  unfold numbered
  rw [List.map_map]
  exact List.zipIdx_map_fst 0 columns

/-- No number is used twice. -/
theorem nodup_numbers (columns : List (Array Bool)) : ((numbered columns).map (·.1)).Nodup := by
  have hnumbers : (numbered columns).map (·.1) = List.range' 0 columns.length := by
    unfold numbered
    rw [List.map_map]
    exact List.zipIdx_map_snd 0 columns
  rw [hnumbers]
  exact List.nodup_range'

namespace FrameLike

variable {F : Type} [FrameLike F] [LawfulFrameLike F] {headings : List String} {rows : List Row}
  (hrows : ∀ row ∈ rows, row.digits.length = headings.length)
include hrows

/-- The columns have one length, and numbers of their own, so a frame keeps them. -/
theorem columns_numbered :
    columns (ofColumns (numbered (columnsOf headings rows)) : F) = columnsOf headings rows := by
  have hsize : ∀ c ∈ numbered (columnsOf headings rows), c.2.size = rows.length := by
    intro c hc
    have hmem := List.mem_map_of_mem (f := Prod.snd) hc
    rw [map_snd_numbered] at hmem
    exact size_of_mem_columnsOf hrows hmem
  rw [LawfulFrameLike.columns_ofColumns _ (nodup_numbers _), map_snd_numbered]
  intro c hc d hd
  rw [hsize c hc, hsize d hd]

theorem length_columns_numbered :
    headings.length = (columns (ofColumns (numbered (columnsOf headings rows)) : F)).length := by
  rw [columns_numbered hrows, columnsOf_eq, List.length_map, List.length_range]

/-- A frame of rows has their columns, in order. -/
theorem columns_ofRows : columns (ofRows F headings rows) = columnsOf headings rows := by
  unfold ofRows
  rw [LawfulFrameLike.columns_relabel _ _ (length_columns_numbered hrows), columns_numbered hrows]

theorem getElem?_columns_ofRows {j : Nat} (hj : j < headings.length) :
    (columns (ofRows F headings rows))[j]? = some (columnDigits rows j).toArray := by
  rw [columns_ofRows hrows, columnsOf_eq, List.getElem?_map, List.getElem?_range hj]
  rfl

/-- Every column has its own heading, also where some are equal. -/
theorem labels_ofRows : labels (ofRows F headings rows) = headings := by
  unfold ofRows
  rw [LawfulFrameLike.labels_relabel _ _ (length_columns_numbered hrows)]

end FrameLike

/-! ## Cells -/

/-- The pieces of a line between its bars: behind the first, before the last. -/
def cellsOf (line : String) : List (List Char) := ((line.toList.splitOn '|').drop 1).dropLast

theorem intercalate_bar (field : List Char) : ∀ fields : List (List Char),
    ['|'].intercalate (field :: (fields ++ [[]])) = field ++ bordered fields
  | [] => by simp [List.intercalate, bordered]
  | next :: fields => by
    have ih := intercalate_bar next fields
    rw [List.cons_append, List.intercalate_cons_cons, ih]
    simp [bordered]

/-- What stands between bars is found again, if there is no bar in it. -/
theorem cellsOf_bordered {line : String} {fields : List (List Char)}
    (hline : line.toList = bordered fields) (hbars : ∀ field ∈ fields, '|' ∉ field) :
    cellsOf line = fields := by
  have hjoined : line.toList = ['|'].intercalate ([] :: (fields ++ [[]])) := by
    rw [intercalate_bar, hline, List.nil_append]
  have hpieces : ∀ field ∈ [] :: (fields ++ [[]]), '|' ∉ field := by
    intro field hfield
    simp only [List.mem_cons, List.mem_append, List.not_mem_nil, or_false] at hfield
    rcases hfield with rfl | hfield | rfl
    · exact List.not_mem_nil
    · exact hbars field hfield
    · exact List.not_mem_nil
  unfold cellsOf
  rw [hjoined, List.splitOn_intercalate _ hpieces (List.cons_ne_nil _ _)]
  simp

/-- The cells of the line of a row are those of its digits. -/
theorem cellsOf_line {l : Layout} {row : Row} (h : row.assignment.bits.length = l.names.length) :
    cellsOf (l.line row) = List.zipWith cell row.digits l.headings := by
  apply cellsOf_bordered (Layout.line_toList_of_length h)
  intro field hfield
  exact bar_not_mem_of_mem_cells hfield

/-- A digit stands in its cell, behind as many blanks as the heading leaves. -/
theorem getElem?_cellsOf_line {l : Layout} {row : Row} {j : Nat} {bit : Bool} {heading : String}
    (h : row.assignment.bits.length = l.names.length) (hbit : row.digits[j]? = some bit)
    (hheading : l.headings[j]? = some heading) :
    (cellsOf (l.line row))[j]? = some (cell bit heading) := by
  rw [cellsOf_line h, List.getElem?_zipWith, hbit, hheading]

/-! ## Tables -/

/-- The digits of a row are those of its assignment, and then its result. -/
theorem Row.digit_cases {row : Row} {n j : Nat} {bit : Bool} (hbits : row.assignment.bits.length = n)
    (hbit : row.digits[j]? = some bit) :
    (j < n → row.assignment.bits[j]? = some bit) ∧ (j = n → row.result = bit) := by
  unfold digits at hbit
  constructor
  · intro hj
    rwa [List.getElem?_append_left (by omega)] at hbit
  · rintro rfl
    rw [List.getElem?_append_right (by omega), hbits, Nat.sub_self] at hbit
    exact Option.some.inj hbit

/-- Rows that are numbered from zero are in the places of their numbers. -/
theorem index_of_getElem? {rows : List Row} {i : Nat} {row : Row}
    (hindex : rows.map Row.index = List.range rows.length) (hrow : rows[i]? = some row) :
    row.index = i := by
  have hi := (List.getElem?_eq_some_iff.mp hrow).1
  have hplace := congrArg (·[i]?) hindex
  simp only [List.getElem?_map, hrow, List.getElem?_range hi] at hplace
  exact Option.some.inj hplace

namespace Table

/-- The frame and the lines hold the data of a table: its rows, numbered from zero, and in each of
them a digit for every name and then the result. -/
structure HoldsData {F : Type} [FrameLike F] (t : Table) (rows : List Row) (lines : List String)
    (frame : F) : Prop where
  labels : FrameLike.labels frame = t.headings
  width : (FrameLike.columns frame).length = t.names.length + 1
  height : ∀ column ∈ FrameLike.columns frame, column.size = 2 ^ t.names.length
  length_lines : lines.length = 3 + 2 * 2 ^ t.names.length
  /-- Digit `j` of row `i` stands in row `i` of column `j` of the frame, and at the right end of cell
  `j` of line `3 + 2 * i`. -/
  digits : ∀ i < 2 ^ t.names.length, ∀ j ≤ t.names.length,
    ∃ (row : Row) (bit : Bool) (column : Array Bool) (line heading : String),
      rows[i]? = some row ∧ row.index = i ∧
      (j < t.names.length → row.assignment.bits[j]? = some bit) ∧
      (j = t.names.length → row.result = bit) ∧
      (FrameLike.columns frame)[j]? = some column ∧ column[i]? = some bit ∧
      lines[3 + 2 * i]? = some line ∧ t.headings[j]? = some heading ∧
      (cellsOf line)[j]? = some (List.replicate (heading.length - 1) ' ' ++ [digitChar bit])

variable {F : Type} [FrameLike F] [LawfulFrameLike F] {t : Table}

/-- **Frames and lines that are made of the same rows hold the same data.** -/
theorem holdsData_of_rows {rows : List Row} (hcount : rows.length = 2 ^ t.names.length)
    (hindex : rows.map Row.index = List.range rows.length)
    (hbits : ∀ row ∈ rows, row.assignment.bits.length = t.names.length) :
    t.HoldsData rows (t.layout.lines rows) (FrameLike.ofRows F t.headings rows) := by
  have hheadings : t.headings.length = t.names.length + 1 := List.length_append
  have hdigits : ∀ row ∈ rows, row.digits.length = t.headings.length := by
    intro row hrow
    exact Layout.length_digits (l := t.layout) (hbits row hrow)
  refine ⟨FrameLike.labels_ofRows hdigits, ?_, ?_, ?_, ?_⟩
  · rw [FrameLike.columns_ofRows hdigits, columnsOf_eq, List.length_map, List.length_range, hheadings]
  · intro column hcolumn
    rw [FrameLike.columns_ofRows hdigits] at hcolumn
    rw [size_of_mem_columnsOf hdigits hcolumn, hcount]
  · rw [Layout.length_lines, hcount]
  · intro i hi j hj
    have hlt : j < t.headings.length := by omega
    obtain ⟨row, hrow⟩ : ∃ row, rows[i]? = some row :=
      ⟨_, List.getElem?_eq_getElem (by omega)⟩
    have hmem := List.mem_of_getElem? hrow
    obtain ⟨bit, hbit⟩ : ∃ bit, row.digits[j]? = some bit := by
      have hlength := hdigits row hmem
      exact ⟨_, List.getElem?_eq_getElem (by omega)⟩
    obtain ⟨heading, hheading⟩ : ∃ heading, t.headings[j]? = some heading :=
      ⟨_, List.getElem?_eq_getElem hlt⟩
    obtain ⟨hdigit, hresult⟩ := Row.digit_cases (hbits row hmem) hbit
    have hentry : (columnDigits rows j)[i]? = some bit := by
      rw [getElem?_columnDigits hlt hdigits, hrow]
      exact hbit
    exact ⟨row, bit, _, _, heading, hrow, index_of_getElem? hindex hrow, hdigit, hresult,
      FrameLike.getElem?_columns_ofRows hdigits hlt, by rwa [List.getElem?_toArray],
      Layout.getElem?_line hrow, hheading, getElem?_cellsOf_line (hbits row hmem) hbit hheading⟩

/-- The lines come one at a time as they come all at once. -/
theorem pullMany_openLines {rows : List Row} (h : t.rows = .ok rows) (k : Nat) :
    (t.openLines.pullMany t.names k).1 = .ok ((t.layout.lines rows).take k) := by
  cases k with
  | zero => rfl
  | succ k =>
    obtain ⟨c', hpull, -⟩ := LineCursor.pullMany_of_yields k (LineCursor.yields_start h t.names t.text)
    show ((LineCursor.start t.text (.start t.formula t.names)).pullMany t.names (k + 1)).1 = _
    rw [hpull]
    rfl

/-- **The frame of a table holds the data that its lines show.** Let the names of the table cover its
formula; they may be repeated, empty, and equal to the text. If the formula is proper, the frame and
the lines hold the same digits: those of the rows, each in its place, and no column is lost. If it is
not, there are no rows, and neither a frame nor lines, all for the same reason. -/
theorem frame_agrees_with_lines (F : Type) [FrameLike F] [LawfulFrameLike F] {t : Table}
    (hcover : ∀ x ∈ t.formula.occurrences, x ∈ t.names) :
    (t.formula.Proper → ∃ rows lines, ∃ frame : F, t.rows = .ok rows ∧ t.lines = .ok lines ∧
      (∀ k, (t.openLines.pullMany t.names k).1 = .ok (lines.take k)) ∧ t.frameAs F = .ok frame ∧
      t.HoldsData rows lines frame) ∧
    (¬ t.formula.Proper → ∃ e, t.rows = .error e ∧ t.lines = .error e ∧ t.frameAs F = .error e) := by
  constructor
  · intro hproper
    have hcovered : t.formula.CoveredBy t.names := ⟨hproper, hcover⟩
    obtain ⟨rows, hrows, hcount, hindex, hbits⟩ := hcovered.exists_rows
    have hrows : t.rows = .ok rows := hrows
    refine ⟨rows, t.layout.lines rows, FrameLike.ofRows F t.headings rows, hrows, ?_,
      pullMany_openLines hrows, ?_, holdsData_of_rows hcount hindex hbits⟩
    · rw [lines, hrows, ← tableLines_eq_lines]
      rfl
    · rw [frameAs, hrows]
      rfl
  · intro hproper
    obtain ⟨e, he⟩ := exists_allRows_error hproper t.names
    have hrows : t.rows = .error e := he
    refine ⟨e, hrows, ?_, ?_⟩
    · rw [lines, hrows]
      rfl
    · rw [frameAs, hrows]
      rfl

/-- The table of `p & q` with a column for `p` twice and with the text `q`: the frame has two columns
with the label `p` and two with the label `q`, and the result of the last row stands in the last
cell of line 17 and in the last column. -/
theorem frame_agrees_with_lines_repeated :
    let t : Table := ⟨"q", .binary .and (.var "p") (.var "q"), .fixed ["p", "q", "p"]⟩
    (∀ x ∈ t.formula.occurrences, x ∈ t.names) ∧ t.formula.Proper ∧
    ∃ rows lines, ∃ frame : Frame, t.frame = .ok frame ∧ frame.labels = ["p", "q", "p", "q"] ∧
      frame.columns.length = 4 ∧ t.HoldsData rows lines frame ∧
      ∃ column line, frame.columns[3]? = some column ∧ column[7]? = some true ∧
        lines[17]? = some line ∧ (cellsOf line)[3]? = some ['1'] := by
  intro t
  have hcover : ∀ x ∈ t.formula.occurrences, x ∈ t.names := by decide
  have hproper : t.formula.Proper := ⟨rfl, trivial, trivial⟩
  obtain ⟨rows, lines, frame, hrows, -, -, hframe, hdata⟩ :=
    (frame_agrees_with_lines Frame hcover).1 hproper
  obtain ⟨row, bit, column, line, heading, hrow, -, -, hresult, hcolumn, hbit, hline, hheading,
    hcell⟩ := hdata.digits 7 (by decide) 3 (by decide)
  have hall : t.rows = .ok _ := allRows_eq hproper hcover
  rw [hall] at hrows
  cases hrows
  obtain ⟨-, rfl⟩ := getElem?_rows.mp hrow
  have hlast : (rowOf t.formula t.names 7).result = true := by decide
  obtain rfl := hlast.symm.trans (hresult rfl)
  cases hheading
  have hlength : t.text.length = 1 := by decide
  rw [hlength] at hcell
  exact ⟨hcover, hproper, _, lines, frame, hframe, hdata.labels, hdata.width, hdata, column, line,
    hcolumn, hbit, hline, hcell⟩

end Table

end Propositional
