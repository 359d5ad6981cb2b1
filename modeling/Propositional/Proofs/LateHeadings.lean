import Propositional.Proofs.Borders
import Propositional.Proofs.Sessions

/-!
# Headings that come too late

A cursor over the lines takes the names for the rows when it is opened, and those for the headings
when the first line is asked for. Names that are added in between have a heading and no digits.

* `cellCount`, `Layout.cellCount_line` — the cells in the line of a row.
* `Layout.Fits`, `Layout.fits_iff` — lines fit their header if its names are those of the rows.
* `Session.headingNames` — the names when the first line is asked for.
* `Session.pulled_lines_fit_iff` — when the lines from a cursor fit their header, in every session.
-/

namespace Propositional

/-! ## Cells -/

/-- How many cells the line of a row has: one between each bar and the next. -/
def cellCount (line : String) : Nat := line.toList.count '|' - 1

theorem count_bordered : ∀ {fields : List (List Char)}, (∀ f ∈ fields, '|' ∉ f) →
    (bordered fields).count '|' = fields.length + 1
  | [], _ => rfl
  | f :: fields, h => by
    obtain ⟨hf, hfields⟩ := List.forall_mem_cons.mp h
    have ih := count_bordered hfields
    rw [bordered, List.count_cons_self] at ih ⊢
    rw [List.flatMap_cons, List.count_append, List.count_append, List.count_eq_zero.mpr hf,
      List.length_cons]
    have hbar : ['|'].count '|' = 1 := rfl
    omega

theorem bar_not_mem_cell (bit : Bool) (heading : String) : '|' ∉ cell bit heading := by
  intro h
  rcases List.mem_append.mp h with h | h
  · have hblank := List.eq_of_mem_replicate h
    cases hblank
  · cases bit <;> simp [digitChar] at h

/-- No cell of a row holds a bar, whatever the headings are. -/
theorem bar_not_mem_of_mem_cells {bits : List Bool} {headings : List String} {field : List Char}
    (h : field ∈ List.zipWith cell bits headings) : '|' ∉ field := by
  obtain ⟨j, hj⟩ := List.mem_iff_getElem?.mp h
  rw [List.getElem?_zipWith] at hj
  split at hj
  · cases hj
    exact bar_not_mem_cell _ _
  · cases hj

namespace Layout

variable {l : Layout}

/-- The line of a row has a cell for each digit that has a heading, and one for the result. -/
theorem cellCount_line (row : Row) :
    cellCount (l.line row) = min row.assignment.bits.length l.names.length + 1 := by
  have hcells : ∀ f ∈ List.zipWith cell row.assignment.bits l.names ++ [cell row.result l.text],
      '|' ∉ f := by
    intro f hf
    rcases List.mem_append.mp hf with hf | hf
    · exact bar_not_mem_of_mem_cells hf
    · rw [List.mem_singleton.mp hf]
      exact bar_not_mem_cell _ _
  rw [cellCount, line_toList, count_bordered hcells, List.length_append, List.length_zipWith]
  rfl

/-- Lines fit their header: they are as long as it is, and the lines of rows have a cell for each of
its columns. -/
structure Fits (l : Layout) (lines : List String) : Prop where
  length : ∀ line ∈ lines, line.length = l.header.length
  cells : ∀ (k : Nat) (line : String), lines[3 + 2 * k]? = some line →
    cellCount line = l.headings.length

section

variable {rows : List Row} {lines names : List String}

/-- Among the first lines of a table, the line of a row has as many cells as the row has digits. -/
theorem cellCount_of_getElem? (hlines : lines <+: l.lines rows) (hnames : names <+: l.names)
    (hrows : ∀ row ∈ rows, row.assignment.bits.length = names.length) {k : Nat} {line : String}
    (hline : lines[3 + 2 * k]? = some line) : cellCount line = names.length + 1 := by
  have hbody : (l.body rows)[2 * k]? = some line := by
    obtain ⟨behind, hbehind⟩ := hlines
    rw [← List.getElem?_append_left (List.getElem?_eq_some_iff.mp hline).1, hbehind,
      Nat.add_comm] at hline
    exact hline
  rw [body_getElem?_line, Option.map_eq_some_iff] at hbody
  obtain ⟨row, hrow, rfl⟩ := hbody
  rw [cellCount_line, hrows row (List.mem_of_getElem? hrow), Nat.min_eq_left hnames.length_le]

/-- Lines without the line of a row fit their header. -/
theorem fits_of_length_le (hlines : lines <+: l.lines rows) (hthree : lines.length ≤ 3) :
    l.Fits lines := by
  have hfirst : lines <+: [l.rule, l.header, l.rule] :=
    List.prefix_of_prefix_length_le hlines (List.prefix_append _ (l.body rows)) hthree
  refine ⟨fun line hline => ?_, fun k line hline => ?_⟩
  · have hmem := hfirst.subset hline
    simp only [List.mem_cons, List.not_mem_nil, or_false] at hmem
    rcases hmem with rfl | rfl | rfl
    · rw [length_rule, length_header]
    · rfl
    · rw [length_rule, length_header]
  · have hlt := (List.getElem?_eq_some_iff.mp hline).1
    omega

/-- **The first lines of a table fit the header exactly if its names are those of the rows**, unless
there is no row among them. -/
theorem fits_iff (hlines : lines <+: l.lines rows) (hheadings : ∀ h ∈ l.headings, h ≠ "")
    (hnames : names <+: l.names)
    (hrows : ∀ row ∈ rows, row.assignment.bits.length = names.length) :
    l.Fits lines ↔ l.names = names ∨ lines.length ≤ 3 := by
  have hcolumns : l.headings.length = l.names.length + 1 := by
    rw [headings, List.length_append, List.length_singleton]
  constructor
  · intro h
    by_cases hthree : lines.length ≤ 3
    · exact .inr hthree
    · have hline : lines[3 + 2 * 0]? = some lines[3] := List.getElem?_eq_getElem (by omega)
      have hsame : names.length + 1 = l.headings.length := by
        rw [← h.cells 0 _ hline, cellCount_of_getElem? hlines hnames hrows hline]
      exact .inl (hnames.eq_of_length (by omega)).symm
  · rintro (rfl | hthree)
    · refine ⟨fun line hline => ?_, fun k line hline => ?_⟩
      · have hwidth : line.length = l.width :=
          (shows_lines hheadings hrows).width line (hlines.subset hline)
        rw [hwidth, length_header]
      · rw [cellCount_of_getElem? hlines hnames hrows hline, hcolumns]
    · exact fits_of_length_le hlines hthree

end

end Layout

namespace Session

/-! ## Lines -/

/-- How many lines a step asks of the cursor in the given place. -/
def linesAsked (k : Nat) (s : Session) : Step → Option Nat
  | .nextLines cursor count =>
    if place? s.lineCursors.length cursor = some k then some count else none
  | _ => none

/-- The lines in an answer. -/
def linesOf : Except StepError Answer → List String
  | .ok (.texts lines) => lines
  | _ => []

/-- The names of the table when a line is first asked of the cursor in the given place; those at the
end if none is. -/
def headingNames (k : Nat) (s : Session) : List Step → List String
  | [] => s.table.names
  | step :: rest =>
    match linesAsked k s step with
    | some (_ + 1) => s.table.names
    | _ => headingNames k (s.perform step).2 rest

/-- The cursor in the given place still has these lines, if these steps are to come. -/
def LinesLeft (k : Nat) (s : Session) (steps : List Step) (lines : List String) : Prop :=
  ∃ c, s.lineCursors[k]? = some c ∧ c.Yields (s.headingNames k steps) lines

section

variable {s s' : Session} {step : Step} {rest : List Step} {k : Nat} {lines : List String}

theorem linesAsked_eq_some {n : Nat} (h : linesAsked k s step = some n) :
    ∃ cursor, step = .nextLines cursor n ∧ place? s.lineCursors.length cursor = some k := by
  unfold linesAsked at h
  split at h
  · split at h
    · rename_i hplace
      cases h
      exact ⟨_, rfl, hplace⟩
    · cases h
  · cases h

/-- Steps that ask nothing of a cursor leave it alone. -/
theorem Change.getElem?_lineCursors {c : LineCursor} (hchange : Change s step s')
    (hc : s.lineCursors[k]? = some c) (hasked : linesAsked k s step = none) :
    s'.lineCursors[k]? = some c := by
  cases hchange with
  | openLines =>
    rw [List.getElem?_append_left (List.getElem?_eq_some_iff.mp hc).1]
    exact hc
  | pullLines hplace =>
    rename_i i _ _
    have hne : i ≠ k := by
      rintro rfl
      simp [linesAsked, hplace] at hasked
    rw [List.getElem?_set_ne hne]
    exact hc
  | _ => exact hc

theorem LinesLeft.of_not_asked (h : LinesLeft k s (step :: rest) lines)
    (hasked : linesAsked k s step = none) : LinesLeft k (s.perform step).2 rest lines := by
  obtain ⟨c, hc, hyields⟩ := h
  simp only [headingNames, hasked] at hyields
  exact ⟨c, (perform_change s step).getElem?_lineCursors hc hasked, hyields⟩

/-- A step that asks for lines gets the next ones. -/
theorem LinesLeft.of_asked (h : LinesLeft k s (step :: rest) lines) {n : Nat}
    (hasked : linesAsked k s step = some n) : (s.perform step).1 = .ok (.texts (lines.take n)) ∧
      LinesLeft k (s.perform step).2 rest (lines.drop n) := by
  obtain ⟨c, hc, hyields⟩ := h
  have hlt : k < s.lineCursors.length := (List.getElem?_eq_some_iff.mp hc).1
  obtain ⟨cursor, rfl, hplace⟩ := linesAsked_eq_some hasked
  rw [perform_nextLines hplace hc]
  simp only [headingNames, hasked, perform_nextLines hplace hc] at hyields
  cases n with
  | zero => exact ⟨rfl, c, by rw [List.getElem?_set_self hlt]; rfl, hyields⟩
  | succ n =>
    obtain ⟨c', hpull, hyields'⟩ := LineCursor.pullMany_of_yields n hyields
    rw [hpull]
    exact ⟨rfl, c', by rw [List.getElem?_set_self hlt], hyields' _⟩

end

/-- The headings are the names at some time. -/
theorem exists_headingNames (k : Nat) : ∀ (s : Session) (steps : List Step),
    ∃ early, early <+: steps ∧ s.headingNames k steps = (s.performAll early).2.table.names
  | s, [] => ⟨[], List.prefix_rfl, rfl⟩
  | s, step :: rest => by
    unfold headingNames
    split
    · exact ⟨[], List.nil_prefix, rfl⟩
    · obtain ⟨early, hearly, hnames⟩ := exists_headingNames k (s.perform step).2 rest
      exact ⟨step :: early, List.cons_prefix_cons.mpr ⟨rfl, hearly⟩, hnames⟩

/-! ## Names and texts that are not empty -/

/-- The step gives no empty name and no empty text. -/
def Step.Nonempty : Step → Prop
  | .addName name => name ≠ ""
  | .setText text => text ≠ ""
  | _ => True

theorem Change.tabular {s s' : Session} {step : Step} (hstep : step.Nonempty)
    (h : Change s step s') (ht : s.table.Tabular) : s'.table.Tabular := by
  have hprefix := h.names_prefix
  cases h with
  | addName name hnames =>
    refine ⟨ht.covered.mono hprefix.subset, fun x hx => ?_, ht.text_ne_empty⟩
    rcases NameSet.mem_add hx with hx | rfl
    · exact ht.names_ne_empty x (by rw [Table.names, hnames]; exact hx)
    · exact hstep
  | setText text => exact ⟨ht.covered, ht.names_ne_empty, hstep⟩
  | _ => exact ht

theorem tabular_performAll {s : Session} {steps : List Step}
    (hsteps : ∀ step ∈ steps, step.Nonempty) (ht : s.table.Tabular) :
    (s.performAll steps).2.table.Tabular :=
  performAll_invariant (I := fun s => s.table.Tabular) Change.tabular hsteps ht

/-- The headings begin with the names that the table has now. -/
theorem names_prefix_headingNames (k : Nat) (s : Session) (steps : List Step) :
    s.table.names <+: s.headingNames k steps := by
  obtain ⟨early, -, hnames⟩ := exists_headingNames k s steps
  rw [hnames]
  exact performAll_invariant (I := fun s' => s.table.names <+: s'.table.names) (P := fun _ => True)
    (fun _ h hs => hs.trans h.names_prefix) (fun _ _ => trivial) List.prefix_rfl

theorem headingNames_ne_empty {s : Session} {steps : List Step}
    (hsteps : ∀ step ∈ steps, step.Nonempty) (ht : s.table.Tabular) (k : Nat) :
    ∀ x ∈ s.headingNames k steps, x ≠ "" := by
  obtain ⟨early, hearly, hnames⟩ := exists_headingNames k s steps
  rw [hnames]
  exact (tabular_performAll (fun step h => hsteps step (hearly.subset h)) ht).names_ne_empty

/-! ## Whether the lines fit -/

/-- **Lines fit their header exactly if no name comes late.** In every session over the table of a
text, a cursor over the lines gives out the rows over the names at the time when it was opened,
under the names at the time when the first line was asked for. What is given out fits the header,
unless these names are not the same and there is a row among the lines. -/
theorem pulled_lines_fit_iff {lexer : Lexer} {text : String} {limit : Int} {t : Table}
    (ht : Table.generate lexer text limit = .ok t) {before after : List Step}
    (hbefore : ∀ step ∈ before, step.Nonempty) (hafter : ∀ step ∈ after, step.Nonempty) :
    let s := ((start t).performAll before).2
    let k := s.lineCursors.length
    let opened := (s.perform .openLines).2
    let pulled := opened.pulls (linesAsked k) after
    let lines := pulled.flatMap (linesOf ·.2)
    let l : Layout := ⟨opened.headingNames k after, s.table.text⟩
    (s.perform .openLines).1 = .ok (.number k) ∧
      (∃ rows, allRows t.formula s.table.names = .ok rows ∧
        Deals .texts (l.lines rows) pulled ∧
          lines = (l.lines rows).take (pulled.map Prod.fst).sum) ∧
      (l.Fits lines ↔ l.names = s.table.names ∨ lines.length ≤ 3) := by
  intro s k opened pulled lines l
  have hstart := Table.tabular_of_generate ht
  have htabular : opened.table.Tabular := tabular_performAll hbefore hstart
  obtain ⟨hformula, hcovered⟩ := covered_performAll hstart.covered before
  obtain ⟨rows, hrows, -, -, hbits⟩ := hcovered.exists_rows
  have hprefix : s.table.names <+: l.names := names_prefix_headingNames k opened after
  have hnames : ∀ x ∈ l.names, x ≠ "" := headingNames_ne_empty hafter htabular k
  have hheadings : ∀ h ∈ l.headings, h ≠ "" :=
    Layout.headings_ne_empty hnames htabular.text_ne_empty
  have hopened : LinesLeft k opened after (l.lines rows) := by
    refine ⟨s.table.openLines, List.getElem?_concat_length, ?_⟩
    rw [Table.openLines, Table.openRows, hformula]
    exact LineCursor.yields_start hrows _ _
  have hdeals : Deals .texts (l.lines rows) pulled :=
    deals_pulls LinesLeft.of_not_asked (fun h hasked => h.of_asked hasked) hopened
  have hlines : lines = (l.lines rows).take (pulled.map Prod.fst).sum :=
    hdeals.flatMap_eq fun _ => rfl
  refine ⟨rfl, ⟨rows, hrows, hdeals, hlines⟩, Layout.fits_iff ?_ hheadings hprefix hbits⟩
  rw [hlines]
  exact List.take_prefix _ _

theorem pulled_lines_fit_iff_early : ∃ t, Table.generate .default "A" 20 = .ok t ∧
    (∀ step ∈ [Step.addName "B"], step.Nonempty) ∧
    (∀ step ∈ [Step.setText "T", .nextLines 0 3, .addName "C", .nextLines (-1) 9], step.Nonempty) ∧
      let s := ((start t).performAll [.addName "B"]).2
      let pulled := (s.perform .openLines).2.pulls (linesAsked 0)
        [.setText "T", .nextLines 0 3, .addName "C", .nextLines (-1) 9]
      pulled.map Prod.fst = [3, 9] ∧
        Layout.Fits ⟨["A", "B"], "A"⟩ (pulled.flatMap (linesOf ·.2)) := by
  obtain ⟨t, ht, htext, hcolumns⟩ : ∃ t, Table.generate .default "A" 20 = .ok t ∧ t.text = "A" ∧
      t.columns = .growing (.ofList ["A"]) := ⟨_, rfl, rfl, rfl⟩
  have hbefore : ∀ step ∈ [Step.addName "B"], step.Nonempty := by simp [Step.Nonempty]
  have hafter : ∀ step ∈ [Step.setText "T", .nextLines 0 3, .addName "C", .nextLines (-1) 9],
      step.Nonempty := by simp [Step.Nonempty]
  obtain ⟨-, -, hfits⟩ := pulled_lines_fit_iff ht hbefore hafter
  obtain ⟨text, formula, columns⟩ := t
  cases htext
  cases hcolumns
  exact ⟨_, ht, hbefore, hafter, rfl, hfits.mpr (.inl rfl)⟩

/-- A name that is added before the first line is asked for has a heading and no digits. -/
theorem pulled_lines_ragged : ∃ t, Table.generate .default "A" 20 = .ok t ∧
    ((start t).performAll [.openLines, .addName "B", .nextLines 0 5]).1 =
      [.ok (.number 0), .ok .done,
        .ok (.texts ["-------", "|A|B|A|", "-------", "|0|0|", "-------"])] ∧
      ¬ Layout.Fits ⟨["A", "B"], "A"⟩ ["-------", "|A|B|A|", "-------", "|0|0|", "-------"] := by
  obtain ⟨t, ht, htext, hcolumns, hformula⟩ : ∃ t, Table.generate .default "A" 20 = .ok t ∧
      t.text = "A" ∧ t.columns = .growing (.ofList ["A"]) ∧ t.formula = .var "A" := ⟨_, rfl, rfl, rfl, rfl⟩
  obtain ⟨text, formula, columns⟩ := t
  cases htext
  cases hcolumns
  cases hformula
  have hrows : allRows (.var "A") ["A"] = .ok ((List.range 2).map (rowOf (.var "A") ["A"])) :=
    allRows_eq trivial (by decide)
  obtain ⟨c', hpull, -⟩ :=
    LineCursor.pullMany_of_yields 4 (LineCursor.yields_start hrows ["A", "B"] "A")
  have hlines :
      (Layout.lines ⟨["A", "B"], "A"⟩ ((List.range 2).map (rowOf (.var "A") ["A"]))).take 5 =
        ["-------", "|A|B|A|", "-------", "|0|0|", "-------"] := by decide +kernel
  refine ⟨_, ht, ?_, fun h => ?_⟩
  · rw [hlines] at hpull
    have hthird : (perform ⟨⟨"A", .var "A", .growing (.ofList ["A", "B"])⟩,
        [.start "A" (.start (.var "A") ["A"])], []⟩ (.nextLines 0 5)).1 =
          .ok (.texts ["-------", "|A|B|A|", "-------", "|0|0|", "-------"]) := by
      have hnames : (NameSet.ofList ["A", "B"]).names = ["A", "B"] := rfl
      rw [perform_nextLines (i := 0) rfl rfl, Table.names, Columns.names, hnames, hpull]
      rfl
    exact congrArg (fun answer => [.ok (.number 0), .ok .done, answer]) hthird
  · have hrow := h.length "|0|0|" (by simp)
    revert hrow
    decide

end Session

end Propositional
