import Propositional.Table.Basic

/-!
# Working with one table

A session is a table in use: names may be added to its columns and its text replaced, while any
number of cursors over its rows and its lines are open, each at its own place.

* `Session.perform` — one step, with its answer. A step that fails leaves the session as it is, but
  for the cursor that failed.
-/

namespace Propositional

structure Session where
  table : Table
  lineCursors : List LineCursor
  rowCursors : List RowCursor

namespace Session

/-- What can be done with a table in use. -/
inductive Step where
  | addName (name : String)
  | setText (text : String)
  | headings
  | rowCount
  | display
  | format
  | render (format : String)
  /-- Opens a cursor before the first line; the answer is its number. -/
  | openLines
  /-- Opens a cursor before the first row; the answer is its number. -/
  | openRows
  | nextLines (cursor : Int) (count : Nat)
  | nextRows (cursor : Int) (count : Nat)
  deriving DecidableEq, Repr

inductive Answer where
  | done
  | number (n : Nat)
  | text (s : String)
  | texts (ss : List String)
  | rows (rows : List Row)
  deriving DecidableEq, Repr

/-- Why a step fails. -/
inductive StepError where
  | render (error : RenderError)
  | noSuchCursor
  /-- The names of the columns were given once and for all. -/
  | fixedColumns
  deriving Repr

def StepError.message : StepError → String
  | .render error => error.message
  | .noSuchCursor => "list index out of range"
  | .fixedColumns => "'list' object has no attribute 'add'"

def start (table : Table) : Session := ⟨table, [], []⟩

/-- The place of a cursor in its list. -/
def place? (n : Nat) (cursor : Int) : Option Nat :=
  let j := fromFront n cursor
  if j < 0 then none else some j.toNat

/-- The answer to a step that changes nothing. -/
def tell (s : Session) (answer : Except StepError Answer) : Except StepError Answer × Session :=
  (answer, s)

/-- Pulls from a cursor over the lines. -/
def pullLines (s : Session) (cursor : Int) (count : Nat) : Except StepError Answer × Session :=
  match place? s.lineCursors.length cursor with
  | none => s.tell (.error .noSuchCursor)
  | some i =>
    match s.lineCursors[i]? with
    | none => s.tell (.error .noSuchCursor)
    | some c =>
      let (found, c) := c.pullMany s.table.names count
      ((found.mapError (.render <| .eval ·)).map .texts,
        { s with lineCursors := s.lineCursors.set i c })

/-- Pulls from a cursor over the rows. -/
def pullRows (s : Session) (cursor : Int) (count : Nat) : Except StepError Answer × Session :=
  match place? s.rowCursors.length cursor with
  | none => s.tell (.error .noSuchCursor)
  | some i =>
    match s.rowCursors[i]? with
    | none => s.tell (.error .noSuchCursor)
    | some c =>
      let (found, c) := c.pullMany count
      ((found.mapError (.render <| .eval ·)).map .rows,
        { s with rowCursors := s.rowCursors.set i c })

/-- One step. -/
def perform (s : Session) : Step → Except StepError Answer × Session
  | .addName name =>
    match s.table.columns with
    | .fixed _ => s.tell (.error .fixedColumns)
    | .growing names =>
      (.ok .done, { s with table := { s.table with columns := .growing (names.add name) } })
  | .setText text => (.ok .done, { s with table := { s.table with text } })
  | .headings => s.tell (.ok (.texts s.table.headings))
  | .rowCount => s.tell ((s.table.rowCount.mapError .render).map .number)
  | .display => s.tell ((s.table.display.mapError .render).map .text)
  | .format => s.tell ((s.table.format.mapError (.render <| .eval ·)).map .text)
  | .render format => s.tell (((s.table.render format).complete.mapError .render).map .text)
  | .openLines =>
    (.ok (.number s.lineCursors.length),
      { s with lineCursors := s.lineCursors ++ [s.table.openLines] })
  | .openRows =>
    (.ok (.number s.rowCursors.length),
      { s with rowCursors := s.rowCursors ++ [s.table.openRows] })
  | .nextLines cursor count => s.pullLines cursor count
  | .nextRows cursor count => s.pullRows cursor count

/-- Several steps, with their answers. -/
def performAll (s : Session) : List Step → List (Except StepError Answer) × Session
  | [] => ([], s)
  | step :: rest =>
    let (answer, s) := s.perform step
    let (answers, s) := s.performAll rest
    (answer :: answers, s)

end Session

end Propositional
