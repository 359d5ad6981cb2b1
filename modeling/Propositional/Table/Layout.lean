import Propositional.Table.Row

/-!
# The bordered layout

A table is laid out in lines of one length:

    ------------
    |A|B|A && B|
    ------------
    |0|0|     0|
    ------------

Every column is as wide as its heading, digits stand right under the last character of the heading,
and a line of dashes goes before and after the header and after every row.

* `Layout` — the headings, and from them the lines.
* `tableLines` — all lines of a table.
* `LineCursor` — the lines one at a time. The headings are taken when the first line is asked for.
* `LineCursor.print` — the lines written out one after the other, as long as there are lines.
-/

namespace Propositional

/-- A text at the right end of a field of the given width. -/
def alignRight (width : Nat) (text : String) : String :=
  String.ofList (List.replicate (width - text.length) ' ') ++ text

def digit (bit : Bool) : String := if bit then "1" else "0"

/-- The headings of a table: the names, and the text of the expression. -/
structure Layout where
  names : List String
  text : String
  deriving DecidableEq, Repr

namespace Layout

def header (l : Layout) : String :=
  "|" ++ String.join (l.names.map (· ++ "|")) ++ l.text ++ "|"

def rule (l : Layout) : String := String.ofList (List.replicate l.header.length '-')

/-- The line of a row: a cell for each digit that has a heading, and the result. -/
def rowLine (l : Layout) (bits : List Bool) (result : Int) : String :=
  let cell (bit : Bool) (name : String) : String := alignRight name.length (digit bit) ++ "|"
  "|" ++ String.join (List.zipWith cell bits l.names) ++
    alignRight l.text.length (toString result) ++ "|"

/-- The line of a row of a table. -/
def line (l : Layout) (row : Row) : String :=
  l.rowLine row.assignment.bits (if row.result then 1 else 0)

end Layout

/-- All lines of a table with the given digits and results. -/
def tableLines (l : Layout) (rows : List (List Bool × Int)) : List String :=
  l.rule :: l.header :: l.rule :: rows.flatMap fun row => [l.rowLine row.1 row.2, l.rule]

/-! ## One line at a time -/

/-- A place among the lines: the text and the rows are fixed from the beginning, the headings from
the first line on; some lines may have been made and not yet given out. -/
structure LineCursor where
  text : String
  rows : RowCursor
  layout : Option Layout
  ready : List String

namespace LineCursor

def start (text : String) (rows : RowCursor) : LineCursor := ⟨text, rows, none, []⟩

/-- The next line, if there is one; `names` are the headings to be taken if this is the first. -/
def pull (names : List String) (c : LineCursor) :
    Except EvalError (Option String) × LineCursor :=
  match c.layout, c.ready with
  | none, _ =>
    let l : Layout := ⟨names, c.text⟩
    (.ok (some l.rule), { c with layout := some l, ready := [l.header, l.rule] })
  | some _, line :: ready => (.ok (some line), { c with ready })
  | some l, [] =>
    match c.rows.pull with
    | (.ok (some row), rows) => (.ok (some (l.line row)), { c with rows, ready := [l.rule] })
    | (.ok none, rows) => (.ok none, { c with rows })
    | (.error e, rows) => (.error e, { c with rows })

/-- How many lines lie behind the place, whether or not they can be made. -/
def remaining (c : LineCursor) : Nat :=
  (if c.layout.isNone then 3 else c.ready.length) + 2 * c.rows.remaining

/-- A line that is given out does not lie behind the place any more. -/
theorem remaining_of_pull {names : List String} {c c' : LineCursor} {line : String}
    (h : c.pull names = (.ok (some line), c')) : c'.remaining < c.remaining := by
  obtain ⟨text, rows, layout, ready⟩ := c
  cases layout with
  | none =>
    cases h
    simp [remaining]
  | some l =>
    cases ready with
    | cons first ready =>
      cases h
      simp [remaining]
    | nil =>
      simp only [pull] at h
      split at h
      · rename_i row rows' hrow
        cases h
        have hrows := RowCursor.remaining_of_pull hrow
        simp only [remaining, Option.isNone_some, Bool.false_eq_true, if_false, List.length_cons,
          List.length_nil]
        omega
      · cases h
      · cases h

/-- The next lines, as many as asked for or as there are. -/
def pullMany (names : List String) (c : LineCursor) :
    Nat → Except EvalError (List String) × LineCursor
  | 0 => (.ok [], c)
  | n + 1 =>
    match c.pull names with
    | (.error e, c) => (.error e, c)
    | (.ok none, c) => (.ok [], c)
    | (.ok (some line), c) =>
      let (lines, c) := c.pullMany names n
      (lines.map (line :: ·), c)

end LineCursor

/-! ## Writing lines out -/

/-- What has been written, and why the writing broke off, if it did. -/
structure Printout (ε : Type) where
  text : String
  failure : Option ε
  deriving DecidableEq, Repr

namespace Printout

variable {ε δ : Type}

/-- A text written whole, or nothing at all. -/
def ofExcept : Except ε String → Printout ε
  | .ok text => ⟨text, none⟩
  | .error e => ⟨"", some e⟩

def mapFailure (f : ε → δ) (p : Printout ε) : Printout δ := ⟨p.text, p.failure.map f⟩

/-- The text, if nothing broke it off. -/
def complete (p : Printout ε) : Except ε String :=
  match p.failure with
  | none => .ok p.text
  | some e => .error e

end Printout

/-- Writes the lines that are left behind what has been written, each with a line feed, up to the
first that cannot be made. What stands before that line stays written. -/
def LineCursor.print (names : List String) (c : LineCursor) (written : String) :
    Printout EvalError :=
  match _h : c.pull names with
  | (.error e, _) => ⟨written, some e⟩
  | (.ok none, _) => ⟨written, none⟩
  | (.ok (some line), c') => c'.print names (written ++ line ++ "\n")
termination_by c.remaining
decreasing_by exact remaining_of_pull _h

/-- What is written depends on the next line alone, and on what is written behind it. -/
theorem LineCursor.print_eq (names : List String) (c : LineCursor) (written : String) :
    c.print names written = match c.pull names with
      | (.error e, _) => ⟨written, some e⟩
      | (.ok none, _) => ⟨written, none⟩
      | (.ok (some line), c') => c'.print names (written ++ line ++ "\n") := by
  rw [print]
  split <;> rename_i hpull <;> rw [hpull]

end Propositional
