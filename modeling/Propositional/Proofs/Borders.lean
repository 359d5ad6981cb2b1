import Propositional.Proofs.Cursors

/-!
# The bordered layout, measured

* `bordered` — fields between bars; `take_drop_bordered` cuts one of them out again.
* `Layout.header_toList`, `Layout.line_toList` — the header and the line of a row are bordered.
* `Layout.columnStart`, `Layout.field` — where a column begins, and its piece of a line.
* `Layout.Shows` — the lines show the rows: how many and how long they are, and what stands where.
* `readBack` — the digits of a table, read from its text alone.
* `generate_layout` — the lines of the table of a text show its rows, and can be read back.
-/

namespace Propositional

/-! ## Fields between bars -/

/-- Fields with a bar before and behind each of them. -/
def bordered (fields : List (List Char)) : List Char := '|' :: fields.flatMap (· ++ ['|'])

theorem length_flatMap_bar (fields : List (List Char)) :
    (fields.flatMap (· ++ ['|'])).length = (fields.map (·.length + 1)).sum := by
  simp [List.length_flatMap]

theorem length_bordered (fields : List (List Char)) :
    (bordered fields).length = 1 + (fields.map (·.length + 1)).sum := by
  rw [bordered, List.length_cons, length_flatMap_bar, Nat.add_comm]

/-- A field is found behind the fields before it and their bars. -/
theorem take_drop_bordered (before : List (List Char)) (field : List Char)
    (behind : List (List Char)) :
    ((bordered (before ++ field :: behind)).drop (1 + (before.map (·.length + 1)).sum)).take
      field.length = field := by
  have hcut : bordered (before ++ field :: behind) =
      ('|' :: before.flatMap (· ++ ['|'])) ++ (field ++ ('|' :: behind.flatMap (· ++ ['|']))) := by
    simp [bordered]
  have hbefore : ('|' :: before.flatMap (· ++ ['|'])).length =
      1 + (before.map (·.length + 1)).sum := length_bordered before
  rw [hcut, List.drop_left' hbefore, List.take_left]

/-! ## Lines of a layout -/

/-- The character of a digit. -/
def digitChar (bit : Bool) : Char := if bit then '1' else '0'

/-- A digit right under the last character of a heading. -/
def cell (bit : Bool) (heading : String) : List Char :=
  List.replicate (heading.length - 1) ' ' ++ [digitChar bit]

theorem length_cell (bit : Bool) {heading : String} (h : heading ≠ "") :
    (cell bit heading).length = heading.length := by
  have hpos := length_pos_of_ne_empty h
  rw [cell, List.length_append, List.length_replicate, List.length_singleton]
  omega

theorem alignRight_digit (bit : Bool) (heading : String) :
    (alignRight heading.length (digit bit)).toList = cell bit heading := by
  rw [alignRight, String.toList_append, String.toList_ofList, cell]
  cases bit <;> rfl

theorem alignRight_result (bit : Bool) (heading : String) :
    (alignRight heading.length (toString (if bit then (1 : Int) else 0))).toList =
      cell bit heading := by
  rw [← alignRight_digit]
  cases bit <;> rfl

namespace Layout

variable (l : Layout)

/-- The names, and the text in the last column. -/
def headings : List String := l.names ++ [l.text]

/-- The length of every line: each heading and the bar behind it, and the bar in front. -/
def width : Nat := 2 + l.text.length + (l.names.map (·.length + 1)).sum

theorem width_eq : l.width = 1 + ((l.headings.map String.length).map (· + 1)).sum := by
  simp only [width, headings, List.map_append, List.map_map, List.sum_append, Function.comp_def,
    List.map_cons, List.map_nil, List.sum_cons, List.sum_nil]
  omega

theorem header_toList : l.header.toList = bordered (l.headings.map String.toList) := by
  simp [header, headings, bordered, List.flatMap_map]

theorem line_toList (row : Row) : (l.line row).toList =
    bordered (List.zipWith cell row.assignment.bits l.names ++ [cell row.result l.text]) := by
  have hcells : (List.zipWith (fun bit (name : String) => alignRight name.length (digit bit) ++ "|")
      row.assignment.bits l.names).flatMap String.toList =
        (List.zipWith cell row.assignment.bits l.names).flatMap (· ++ ['|']) := by
    rw [List.flatMap_def, List.flatMap_def, List.map_zipWith, List.map_zipWith]
    simp only [String.toList_append, alignRight_digit]
    rfl
  unfold line rowLine
  simp only [String.toList_append, String.toList_join, alignRight_result, hcells]
  rw [bordered, List.flatMap_append]
  simp

/-- Where a column begins. -/
def columnStart (j : Nat) : Nat := 1 + ((l.headings.take j).map (·.length + 1)).sum

/-- The piece of a line in a column: as long as the heading, from where the column begins. -/
def field (j : Nat) (line : String) : List Char :=
  (line.toList.drop (l.columnStart j)).take ((l.headings[j]?.map String.length).getD 0)

variable {l}

theorem headings_ne_empty (hnames : ∀ x ∈ l.names, x ≠ "") (htext : l.text ≠ "") :
    ∀ h ∈ l.headings, h ≠ "" := by
  intro h hmem
  rcases List.mem_append.mp hmem with hmem | hmem
  · exact hnames h hmem
  · rw [List.mem_singleton.mp hmem]
    exact htext

section

variable {line : String} {fields : List (List Char)}

/-- A line with a field for every heading has the width of the layout. -/
theorem length_of_fields (hline : line.toList = bordered fields)
    (hwidths : fields.map List.length = l.headings.map String.length) : line.length = l.width := by
  rw [← String.length_toList, hline, length_bordered, width_eq, ← hwidths, List.map_map]
  rfl

/-- **Cutting a line where the columns begin gives its fields**, if they are as long as the
headings. -/
theorem field_of_fields (hline : line.toList = bordered fields)
    (hwidths : fields.map List.length = l.headings.map String.length) {j : Nat} {f : List Char}
    (hf : fields[j]? = some f) : l.field j line = f := by
  have hstart : l.columnStart j = 1 + ((fields.take j).map (·.length + 1)).sum := by
    have hmap : (l.headings.take j).map (·.length + 1) = (fields.take j).map (·.length + 1) := by
      have hsame := congrArg (fun ws => (ws.take j).map (· + 1)) hwidths
      simp only [← List.map_take, List.map_map] at hsame
      exact hsame.symm
    rw [columnStart, hmap]
  have hlength : (l.headings[j]?.map String.length).getD 0 = f.length := by
    rw [← List.getElem?_map, ← hwidths, List.getElem?_map, hf]
    rfl
  obtain ⟨hlt, rfl⟩ := List.getElem?_eq_some_iff.mp hf
  have hcut : fields = fields.take j ++ fields[j] :: fields.drop (j + 1) := by
    rw [← List.drop_eq_getElem_cons hlt, List.take_append_drop]
  have hfound := take_drop_bordered (fields.take j) fields[j] (fields.drop (j + 1))
  rw [← hcut] at hfound
  unfold field
  rw [hstart, hlength, hline, hfound]

end

theorem header_widths : (l.headings.map String.toList).map List.length =
    l.headings.map String.length := by
  rw [List.map_map]
  exact List.map_congr_left fun h _ => String.length_toList

/-- The columns of the header are the headings, as they are. -/
theorem field_header {j : Nat} {heading : String} (h : l.headings[j]? = some heading) :
    l.field j l.header = heading.toList := by
  refine field_of_fields l.header_toList header_widths ?_
  rw [List.getElem?_map, h]
  rfl

end Layout

/-! ## Rows under their headings -/

/-- The digits of a row, the result last. -/
def Row.digits (row : Row) : List Bool := row.assignment.bits ++ [row.result]

namespace Layout

variable {l : Layout} {row : Row}

/-- A row with a digit for every name has a cell under every heading. -/
theorem line_toList_of_length (h : row.assignment.bits.length = l.names.length) :
    (l.line row).toList = bordered (List.zipWith cell row.digits l.headings) := by
  rw [line_toList, Row.digits, headings, List.zipWith_append h]
  rfl

theorem cell_widths : ∀ {bits : List Bool} {hs : List String}, (∀ h ∈ hs, h ≠ "") →
    bits.length = hs.length → (List.zipWith cell bits hs).map List.length = hs.map String.length
  | [], [], _, _ => rfl
  | b :: bits, h :: hs, hne, hlen => by
    obtain ⟨hh, hhs⟩ := List.forall_mem_cons.mp hne
    rw [List.zipWith_cons_cons, List.map_cons, List.map_cons, length_cell b hh,
      cell_widths hhs (Nat.succ.inj hlen)]

theorem length_digits (h : row.assignment.bits.length = l.names.length) :
    row.digits.length = l.headings.length := by
  rw [Row.digits, headings, List.length_append, List.length_append, h]
  rfl

/-- A digit stands in its column, under the last character of the heading. -/
theorem field_line (hheadings : ∀ h ∈ l.headings, h ≠ "")
    (h : row.assignment.bits.length = l.names.length) {j : Nat} {heading : String} {bit : Bool}
    (hheading : l.headings[j]? = some heading) (hbit : row.digits[j]? = some bit) :
    l.field j (l.line row) = cell bit heading := by
  refine field_of_fields (line_toList_of_length h) (cell_widths hheadings (length_digits h)) ?_
  rw [List.getElem?_zipWith, hheading, hbit]

theorem length_line (hheadings : ∀ h ∈ l.headings, h ≠ "")
    (h : row.assignment.bits.length = l.names.length) : (l.line row).length = l.width :=
  length_of_fields (line_toList_of_length h) (cell_widths hheadings (length_digits h))

theorem length_header : l.header.length = l.width := length_of_fields l.header_toList header_widths

theorem rule_toList : l.rule.toList = List.replicate l.width '-' := by
  rw [rule, String.toList_ofList, length_header]

theorem length_rule : l.rule.length = l.width := by
  rw [← String.length_toList, rule_toList, List.length_replicate]

/-! ## All lines -/

theorem length_body (rows : List Row) : (l.body rows).length = 2 * rows.length := by
  induction rows with
  | nil => rfl
  | cons row rows ih =>
    have hbody : l.body (row :: rows) = l.line row :: l.rule :: l.body rows := rfl
    rw [hbody, List.length_cons, List.length_cons, ih, List.length_cons]
    omega

theorem length_lines (rows : List Row) : (l.lines rows).length = 3 + 2 * rows.length := by
  rw [Layout.lines, List.length_cons, List.length_cons, List.length_cons, length_body]
  omega

/-- The line of a row comes after two lines for every row before it. -/
theorem body_getElem?_line : ∀ {rows : List Row} {k : Nat},
    (l.body rows)[2 * k]? = rows[k]?.map l.line
  | [], k => by simp [body]
  | row :: rows, 0 => rfl
  | row :: rows, k + 1 => by
    have ih : (l.body rows)[2 * k]? = rows[k]?.map l.line := body_getElem?_line
    exact ih

theorem body_getElem?_rule : ∀ {rows : List Row} {k : Nat},
    (l.body rows)[2 * k + 1]? = rows[k]?.map fun _ => l.rule
  | [], k => by simp [body]
  | row :: rows, 0 => rfl
  | row :: rows, k + 1 => by
    have ih : (l.body rows)[2 * k + 1]? = rows[k]?.map fun _ => l.rule := body_getElem?_rule
    exact ih

/-- The line of a row, among all lines. -/
theorem getElem?_line {rows : List Row} {k : Nat} {row : Row} (h : rows[k]? = some row) :
    (l.lines rows)[3 + 2 * k]? = some (l.line row) := by
  have hline : (l.body rows)[2 * k]? = some (l.line row) := by
    rw [body_getElem?_line, h]
    rfl
  rw [Nat.add_comm]
  exact hline

/-- The lines in even places are rules. -/
theorem eq_rule_of_getElem? {rows : List Row} {i : Nat} {line : String}
    (h : (l.lines rows)[2 * i]? = some line) : line = l.rule := by
  cases i with
  | zero => exact (Option.some.inj h).symm
  | succ i =>
    rw [Layout.lines, Nat.mul_succ, List.getElem?_cons_succ, List.getElem?_cons_succ] at h
    cases i with
    | zero => exact (Option.some.inj h).symm
    | succ i =>
      rw [Nat.mul_succ, List.getElem?_cons_succ, body_getElem?_rule, Option.map_eq_some_iff] at h
      obtain ⟨-, -, rfl⟩ := h
      rfl

/-- The lines show the rows under the headings of the layout. -/
structure Shows (l : Layout) (rows : List Row) (lines : List String) : Prop where
  length : lines.length = 3 + 2 * rows.length
  width : ∀ line ∈ lines,
    line.length = 2 + l.text.length + (l.names.map (·.length + 1)).sum
  /-- The lines in even places are rules. -/
  rules : ∀ (i : Nat) (line : String), lines[2 * i]? = some line → ∀ c ∈ line.toList, c = '-'
  /-- The second line has the names and the text, as they are, between bars. -/
  header : ∃ line, lines[1]? = some line ∧ line.toList = bordered (l.headings.map String.toList) ∧
    ∀ (j : Nat) (heading : String), l.headings[j]? = some heading →
      l.field j line = heading.toList
  /-- The line of a row has one digit in each column, right under the last character of the
  heading, and otherwise blanks. -/
  cells : ∀ (k : Nat) (row : Row), rows[k]? = some row → row.digits.length = l.headings.length ∧
    ∃ line, lines[3 + 2 * k]? = some line ∧ ∀ (j : Nat) (heading : String) (bit : Bool),
      l.headings[j]? = some heading → row.digits[j]? = some bit →
        l.field j line = List.replicate (heading.length - 1) ' ' ++ [digitChar bit]

/-- **The lines of a table show its rows**, if no heading is empty and every row has a digit for
each name. -/
theorem shows_lines {rows : List Row} (hheadings : ∀ h ∈ l.headings, h ≠ "")
    (hrows : ∀ row ∈ rows, row.assignment.bits.length = l.names.length) :
    l.Shows rows (l.lines rows) where
  length := length_lines rows
  width line hline := by
    simp only [Layout.lines, body, List.mem_cons, List.mem_flatMap, List.not_mem_nil,
      or_false] at hline
    rcases hline with rfl | rfl | rfl | ⟨row, hrow, rfl | rfl⟩
    · exact length_rule
    · exact length_header
    · exact length_rule
    · exact length_line hheadings (hrows row hrow)
    · exact length_rule
  rules i line hline := by
    rw [eq_rule_of_getElem? hline, rule_toList]
    exact fun c hc => List.eq_of_mem_replicate hc
  header := ⟨l.header, rfl, l.header_toList, fun _ _ h => field_header h⟩
  cells k row hrow := by
    have hlength := hrows row (List.mem_of_getElem? hrow)
    exact ⟨length_digits hlength, l.line row, getElem?_line hrow, fun _ _ _ hheading hbit =>
      field_line hheadings hlength hheading hbit⟩

end Layout

/-! ## Reading a table back -/

/-- The digit that a character stands for. -/
def digitOf? : Char → Option Bool
  | '0' => some false
  | '1' => some true
  | _ => none

/-- The digits of the rows of a table that is given as one text. The rule that comes first tells how
long every line is. -/
def readBack (text : String) : List (List Bool) :=
  let cs := text.toList
  let width := (cs.takeWhile (· == '-')).length
  let lineAt (i : Nat) : List Char := (cs.drop (i * (width + 1))).take width
  (List.range (((cs.length + 1) / (width + 1) - 3) / 2)).map fun k =>
    (lineAt (3 + 2 * k)).filterMap digitOf?

theorem filterMap_cell (bit : Bool) (heading : String) :
    (cell bit heading ++ ['|']).filterMap digitOf? = [bit] := by
  have hblanks : (List.replicate (heading.length - 1) ' ').filterMap digitOf? = [] := by
    refine List.filterMap_eq_nil_iff.mpr fun c hc => ?_
    rw [List.eq_of_mem_replicate hc]
    rfl
  rw [cell, List.filterMap_append, List.filterMap_append, hblanks]
  cases bit <;> rfl

theorem filterMap_cells : ∀ {bits : List Bool} {hs : List String}, bits.length = hs.length →
    (bordered (List.zipWith cell bits hs)).filterMap digitOf? = bits
  | [], [], _ => rfl
  | b :: bits, h :: hs, hlen => by
    have ih := filterMap_cells (Nat.succ.inj hlen)
    have hbar : digitOf? '|' = none := rfl
    rw [bordered, List.filterMap_cons_none hbar] at ih ⊢
    rw [List.zipWith_cons_cons, List.flatMap_cons, List.filterMap_append, filterMap_cell, ih]
    rfl

section

variable {width : Nat}

/-- Lines of one length, with a line feed between each two. -/
theorem length_intercalate : ∀ {lines : List (List Char)}, lines ≠ [] →
    (∀ line ∈ lines, line.length = width) →
      (['\n'].intercalate lines).length + 1 = lines.length * (width + 1)
  | [line], _, h => by
    rw [List.intercalate_singleton, h line (by simp), List.length_singleton, Nat.one_mul]
  | line :: next :: rest, _, h => by
    obtain ⟨hline, hrest⟩ := List.forall_mem_cons.mp h
    have ih := length_intercalate (List.cons_ne_nil next rest) hrest
    have hcount : (line :: next :: rest).length = (next :: rest).length + 1 := List.length_cons
    rw [List.intercalate_cons_cons, List.length_append, List.length_append, hline, Nat.add_assoc,
      ih, hcount, Nat.succ_mul, List.length_singleton, Nat.add_comm]

/-- A line is found behind the lines before it and their line feeds. -/
theorem take_drop_intercalate : ∀ {lines : List (List Char)} {i : Nat} {line : List Char},
    (∀ line ∈ lines, line.length = width) → lines[i]? = some line →
      ((['\n'].intercalate lines).drop (i * (width + 1))).take width = line
  | [line], 0, _, h, hi => by
    cases hi
    rw [List.intercalate_singleton, Nat.zero_mul, List.drop_zero]
    exact List.take_of_length_le (Nat.le_of_eq (h line (by simp)))
  | line :: next :: rest, 0, _, h, hi => by
    cases hi
    rw [List.intercalate_cons_cons, Nat.zero_mul, List.drop_zero, List.append_assoc]
    exact List.take_left' (h line (by simp))
  | line :: next :: rest, i + 1, found, h, hi => by
    obtain ⟨hline, hrest⟩ := List.forall_mem_cons.mp h
    have hfirst : (line ++ ['\n']).length = width + 1 := by
      rw [List.length_append, hline, List.length_singleton]
    rw [List.intercalate_cons_cons, Nat.succ_mul, Nat.add_comm, ← List.drop_drop,
      List.drop_left' hfirst]
    exact take_drop_intercalate hrest hi

end

namespace Layout

variable {l : Layout}

/-- **The text of a table can be read back**: it tells the digits of all rows. -/
theorem readBack_lines {rows : List Row} (hheadings : ∀ h ∈ l.headings, h ≠ "")
    (hrows : ∀ row ∈ rows, row.assignment.bits.length = l.names.length) :
    readBack ("\n".intercalate (l.lines rows)) =
      rows.map Row.digits := by
  have hshows := shows_lines hheadings hrows
  generalize hlines : l.lines rows = lines at hshows
  have hwidth : ∀ line ∈ lines.map String.toList, line.length = l.width := by
    intro line hline
    obtain ⟨s, hs, rfl⟩ := List.mem_map.mp hline
    rw [String.length_toList]
    exact hshows.width s hs
  have htext : ("\n".intercalate lines).toList = ['\n'].intercalate (lines.map String.toList) :=
    String.toList_intercalate
  have hrule : (("\n".intercalate lines).toList.takeWhile (· == '-')).length = l.width := by
    rw [htext, ← hlines, Layout.lines, List.map_cons, List.map_cons, List.intercalate_cons_cons,
      rule_toList, List.append_assoc, List.takeWhile_append_of_pos (by simp)]
    simp
  have hlength : ("\n".intercalate lines).toList.length + 1 =
      (3 + 2 * rows.length) * (l.width + 1) := by
    rw [htext, length_intercalate (by simp [← hlines, Layout.lines]) hwidth, List.length_map,
      hshows.length]
  have hcount : ((3 + 2 * rows.length) * (l.width + 1) / (l.width + 1) - 3) / 2 = rows.length := by
    rw [Nat.mul_div_cancel _ (Nat.succ_pos _)]
    omega
  unfold readBack
  simp only [hrule, hlength, hcount]
  refine List.ext_getElem? fun k => ?_
  cases hrow : rows[k]? with
  | none =>
    have hk : rows.length ≤ k := List.getElem?_eq_none_iff.mp hrow
    simp [hk]
  | some row =>
    have hk : k < rows.length := (List.getElem?_eq_some_iff.mp hrow).1
    have hline : (lines.map String.toList)[3 + 2 * k]? = some (l.line row).toList := by
      rw [← hlines, List.getElem?_map, getElem?_line hrow]
      rfl
    have hlength := hrows row (List.mem_of_getElem? hrow)
    have hdigits : (l.line row).toList.filterMap digitOf? = row.digits := by
      rw [line_toList_of_length hlength, filterMap_cells (length_digits hlength)]
    rw [List.getElem?_map, List.getElem?_range hk, Option.map_some, htext,
      take_drop_intercalate hwidth hline, hdigits, List.getElem?_map, hrow, Option.map_some]

end Layout

/-! ## The table of a text -/

/-- **The bordered layout of a text's table.** All rows can be evaluated and all lines made, at once
or one after the other. The lines show the rows under the names and the text as it was given, and
the rows can be read back from the lines. -/
theorem generate_layout {lexer : Lexer} {text : String} {limit : Int} {t : Table}
    (ht : Table.generate lexer text limit = .ok t) :
    ∃ rows lines whole, t.rows = .ok rows ∧
      rows.length = 2 ^ t.names.length ∧ rows.map Row.index = List.range rows.length ∧
      t.lines = .ok lines ∧ (∀ n, (t.openLines.pullMany t.names n).1 = .ok (lines.take n)) ∧
      Layout.Shows ⟨t.names, text⟩ rows lines ∧
      t.format = .ok whole ∧ readBack whole = rows.map Row.digits := by
  have htabular := Table.tabular_of_generate ht
  have hheadings : ∀ h ∈ t.layout.headings, h ≠ "" :=
    Layout.headings_ne_empty htabular.names_ne_empty htabular.text_ne_empty
  have htext : t.layout = ⟨t.names, text⟩ := by
    obtain ⟨r, -, rfl⟩ := Table.eq_of_generate ht
    rfl
  obtain ⟨rows, hrows, hcount, hnumbers, hbits⟩ := htabular.covered.exists_rows
  have hlines : t.lines = .ok (t.layout.lines rows) := by
    rw [Table.lines, Table.rows, hrows]
    exact congrArg Except.ok (tableLines_eq_lines _ rows)
  have hwhole : t.format = .ok ("\n".intercalate (t.layout.lines rows)) := by
    rw [Table.format, hlines]
    rfl
  refine ⟨rows, _, _, hrows, hcount, hnumbers, hlines, fun n => ?_, ?_, hwhole,
    Layout.readBack_lines hheadings hbits⟩
  · cases n with
    | zero => rfl
    | succ n =>
      have hyields := LineCursor.yields_start hrows t.names t.text
      obtain ⟨c', hpull, -⟩ := LineCursor.pullMany_of_yields n hyields
      rw [Table.openLines, Table.openRows, hpull]
      rfl
  · rw [← htext]
    exact Layout.shows_lines hheadings hbits

theorem generate_layout_wide : ∃ t rows lines whole,
    Table.generate .default "foo | b" 20 = .ok t ∧ t.rows = .ok rows ∧ t.lines = .ok lines ∧
      Layout.Shows ⟨["foo", "b"], "foo | b"⟩ rows lines ∧ t.format = .ok whole ∧ readBack whole =
        [[false, false, false], [false, true, true], [true, false, true], [true, true, true]] := by
  obtain ⟨t, ht, hnames, hformula⟩ : ∃ t, Table.generate .default "foo | b" 20 = .ok t ∧
      t.names = ["foo", "b"] ∧ t.formula = .binary .or (.var "foo") (.var "b") := ⟨_, rfl, rfl, rfl⟩
  have hrows : t.rows = .ok ((List.range 4).map (rowOf t.formula ["foo", "b"])) := by
    rw [Table.rows, hnames, hformula]
    exact allRows_eq ⟨rfl, trivial, trivial⟩ (by decide)
  have hdigits : ((List.range 4).map (rowOf t.formula ["foo", "b"])).map Row.digits =
      [[false, false, false], [false, true, true], [true, false, true], [true, true, true]] := by
    rw [hformula]
    decide +kernel
  obtain ⟨rows, lines, whole, hall, -, -, hlines, -, hshows, hwhole, hread⟩ := generate_layout ht
  obtain rfl : _ = rows := Except.ok.inj (hrows.symm.trans hall)
  rw [hnames] at hshows
  exact ⟨t, _, lines, whole, ht, hrows, hlines, hshows, hwhole, hread.trans hdigits⟩

end Propositional
