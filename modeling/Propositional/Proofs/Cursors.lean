import Propositional.Proofs.AcceptedTexts
import Propositional.Proofs.Tabulation

/-!
# What a cursor still gives

* `Formula.CoveredBy.exists_rows` — all rows of a formula over names that cover it.
* `RowCursor.Yields` — the rows that a cursor has not given out yet.
* `Layout.lines`, `LineCursor.Yields` — the lines that a cursor has not given out yet. While it has
  given out none, they depend on the headings at the time of the first one.
* `RowCursor.pullMany_of_yields`, `LineCursor.pullMany_of_yields` — a cursor gives what it still
  has, in order, as much as is asked for, and afterwards it has the rest.
* `RowCursor.yields_start`, `LineCursor.yields_start` — what a new cursor has.
-/

namespace Propositional

/-! ## Rows -/

/-- A formula has a row for every assignment to names that cover it, in order, with a digit for each
name. -/
theorem Formula.CoveredBy.exists_rows {f : Formula} {names : List String} (h : f.CoveredBy names) :
    ∃ rows, allRows f names = .ok rows ∧ rows.length = 2 ^ names.length ∧
      rows.map Row.index = List.range rows.length ∧
        ∀ row ∈ rows, row.assignment.bits.length = names.length := by
  refine ⟨_, allRows_eq h.proper h.mem, by simp, ?_, fun row hrow => ?_⟩
  · rw [List.length_map, List.length_range, List.map_map]
    exact List.map_id' _
  · obtain ⟨i, -, rfl⟩ := List.mem_map.mp hrow
    exact Assignment.length_bits _

namespace RowCursor

/-- The numbers of the rows that have not been given out. -/
def left (c : RowCursor) : List Nat :=
  if c.closed then [] else List.range' c.next (assignmentCount c.names.length - c.next)

/-- The rows that have not been given out can all be evaluated, and these are they. -/
def Yields (c : RowCursor) (rows : List Row) : Prop :=
  c.left.mapM (rowAt c.nodes c.names c.places) = .ok rows

theorem left_eq_nil_iff (c : RowCursor) :
    c.left = [] ↔ (c.closed || assignmentCount c.names.length ≤ c.next) = true := by
  unfold left
  cases c.closed with
  | true => simp
  | false => simp [Nat.sub_eq_zero_iff_le]

/-- The number that comes first is that of the next row. -/
theorem left_eq_cons {c : RowCursor} {i : Nat} {rest : List Nat} (h : c.left = i :: rest) :
    i = c.next ∧ rest = left { c with next := c.next + 1 } := by
  unfold left at h ⊢
  cases hclosed : c.closed with
  | true => simp [hclosed] at h
  | false =>
    simp only [hclosed, Bool.false_eq_true, if_false] at h ⊢
    cases hcount : assignmentCount c.names.length - c.next with
    | zero => simp [hcount] at h
    | succ n =>
      rw [hcount, List.range'_succ, List.cons.injEq] at h
      obtain ⟨rfl, rfl⟩ := h
      have hrest : assignmentCount c.names.length - (c.next + 1) = n := by omega
      exact ⟨rfl, by rw [hrest]⟩

theorem pull_of_yields_nil {c : RowCursor} (h : c.Yields []) :
    ∃ c', c.pull = (.ok none, c') ∧ c'.Yields [] := by
  have hleft : c.left = [] := by
    cases hl : c.left with
    | nil => rfl
    | cons i rest =>
      rw [Yields, hl, List.mapM_cons] at h
      obtain ⟨row, -, hrows⟩ := exists_of_bind_eq_ok h
      obtain ⟨rows, -, hnil⟩ := exists_of_bind_eq_ok hrows
      cases hnil
  refine ⟨{ c with closed := true }, ?_, rfl⟩
  unfold pull
  rw [if_pos ((left_eq_nil_iff c).mp hleft)]

theorem pull_of_yields_cons {c : RowCursor} {row : Row} {rows : List Row}
    (h : c.Yields (row :: rows)) : ∃ c', c.pull = (.ok (some row), c') ∧ c'.Yields rows := by
  cases hl : c.left with
  | nil =>
    rw [Yields, hl] at h
    cases h
  | cons i rest =>
    have hopen : ¬ (c.closed || assignmentCount c.names.length ≤ c.next) = true := by
      rw [← left_eq_nil_iff, hl]
      exact List.cons_ne_nil i rest
    obtain ⟨rfl, rfl⟩ := left_eq_cons hl
    rw [Yields, hl, List.mapM_cons] at h
    obtain ⟨first, hfirst, hmore⟩ := exists_of_bind_eq_ok h
    obtain ⟨others, hothers, heq⟩ := exists_of_bind_eq_ok hmore
    cases heq
    refine ⟨{ c with next := c.next + 1 }, ?_, hothers⟩
    unfold pull
    rw [if_neg hopen, hfirst]

/-- **A cursor gives the rows that it still has, in order, and then has the rest.** -/
theorem pullMany_of_yields : ∀ (n : Nat) {c : RowCursor} {rows : List Row}, c.Yields rows →
    ∃ c', c.pullMany n = (.ok (rows.take n), c') ∧ c'.Yields (rows.drop n)
  | 0, c, rows, h => ⟨c, rfl, h⟩
  | n + 1, c, [], h => by
    obtain ⟨c', hpull, h'⟩ := pull_of_yields_nil h
    exact ⟨c', by rw [pullMany, hpull]; rfl, h'⟩
  | n + 1, c, row :: rows, h => by
    obtain ⟨c', hpull, h'⟩ := pull_of_yields_cons h
    obtain ⟨c'', hmany, h''⟩ := pullMany_of_yields n h'
    refine ⟨c'', ?_, h''⟩
    rw [pullMany, hpull]
    simp only [hmany]
    rfl

/-- A new cursor has all rows. -/
theorem yields_start {f : Formula} {names : List String} {rows : List Row}
    (h : allRows f names = .ok rows) : (start f names).Yields rows := by
  rw [allRows, List.range_eq_range'] at h
  exact h

end RowCursor

/-! ## Lines -/

/-- The lines of some rows, with a rule behind each of them. -/
def Layout.body (l : Layout) (rows : List Row) : List String :=
  rows.flatMap fun row => [l.line row, l.rule]

/-- All lines: the header between two rules, and the lines of the rows. -/
def Layout.lines (l : Layout) (rows : List Row) : List String :=
  l.rule :: l.header :: l.rule :: l.body rows

/-- The lines of a table. -/
theorem tableLines_eq_lines (l : Layout) (rows : List Row) :
    tableLines l (rows.map fun row => (row.assignment.bits, if row.result then 1 else 0)) =
      l.lines rows := by
  unfold tableLines Layout.lines Layout.body
  rw [List.flatMap_map]
  rfl

namespace LineCursor

/-- The lines that have not been given out, if these are the rows that are left. The names are the
headings to be taken if no line has been given out. -/
def left (names : List String) (rows : List Row) (c : LineCursor) : List String :=
  match c.layout with
  | none => Layout.lines ⟨names, c.text⟩ rows
  | some l => c.ready ++ l.body rows

/-- The lines that have not been given out can all be made, and these are they. -/
def Yields (names : List String) (c : LineCursor) (lines : List String) : Prop :=
  ∃ rows, c.rows.Yields rows ∧ c.left names rows = lines

variable {names : List String} {c : LineCursor}

theorem pull_of_yields_nil (h : c.Yields names []) :
    ∃ c', c.pull names = (.ok none, c') ∧ ∀ names', c'.Yields names' [] := by
  obtain ⟨text, rowCursor, layout, ready⟩ := c
  obtain ⟨rows, hrows, hlines⟩ := h
  cases layout with
  | none => cases hlines
  | some l =>
    obtain ⟨rfl, hbody⟩ := List.append_eq_nil_iff.mp hlines
    cases rows with
    | cons row rows => cases hbody
    | nil =>
      obtain ⟨c', hpull, h'⟩ := RowCursor.pull_of_yields_nil hrows
      refine ⟨⟨text, c', some l, []⟩, ?_, fun _ => ⟨[], h', rfl⟩⟩
      simp only [pull, hpull]

theorem pull_of_yields_cons {line : String} {lines : List String}
    (h : c.Yields names (line :: lines)) :
    ∃ c', c.pull names = (.ok (some line), c') ∧ ∀ names', c'.Yields names' lines := by
  obtain ⟨text, rowCursor, layout, ready⟩ := c
  obtain ⟨rows, hrows, hlines⟩ := h
  cases layout with
  | none =>
    obtain ⟨rfl, rfl⟩ := List.cons.inj hlines
    exact ⟨_, rfl, fun _ => ⟨rows, hrows, rfl⟩⟩
  | some l =>
    cases ready with
    | cons first ready =>
      obtain ⟨rfl, rfl⟩ := List.cons.inj hlines
      exact ⟨_, rfl, fun _ => ⟨rows, hrows, rfl⟩⟩
    | nil =>
      cases rows with
      | nil => cases hlines
      | cons row rows =>
        obtain ⟨c', hpull, h'⟩ := RowCursor.pull_of_yields_cons hrows
        obtain ⟨rfl, rfl⟩ := List.cons.inj hlines
        refine ⟨⟨text, c', some l, [l.rule]⟩, ?_, fun _ => ⟨rows, h', rfl⟩⟩
        simp only [pull, hpull]

/-- **A cursor gives the lines that it still has, in order, and then has the rest**, whatever the
headings are from then on. -/
theorem pullMany_of_yields : ∀ (n : Nat) {c : LineCursor} {lines : List String},
    c.Yields names lines → ∃ c', c.pullMany names (n + 1) = (.ok (lines.take (n + 1)), c') ∧
      ∀ names', c'.Yields names' (lines.drop (n + 1))
  | n, c, [], h => by
    obtain ⟨c', hpull, h'⟩ := pull_of_yields_nil h
    exact ⟨c', by rw [pullMany, hpull]; rfl, h'⟩
  | 0, c, line :: lines, h => by
    obtain ⟨c', hpull, h'⟩ := pull_of_yields_cons h
    exact ⟨c', by rw [pullMany, hpull]; rfl, h'⟩
  | n + 1, c, line :: lines, h => by
    obtain ⟨c', hpull, h'⟩ := pull_of_yields_cons h
    obtain ⟨c'', hmany, h''⟩ := pullMany_of_yields n (h' names)
    refine ⟨c'', ?_, h''⟩
    rw [pullMany, hpull]
    simp only [hmany]
    rfl

/-- A new cursor has all lines of the table under the headings that it will find. -/
theorem yields_start {f : Formula} {rowNames : List String} {rows : List Row}
    (h : allRows f rowNames = .ok rows) (names : List String) (text : String) :
    (start text (.start f rowNames)).Yields names (Layout.lines ⟨names, text⟩ rows) :=
  ⟨rows, RowCursor.yields_start h, rfl⟩

end LineCursor

end Propositional
