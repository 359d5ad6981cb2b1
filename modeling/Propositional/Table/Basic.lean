import Propositional.Reading.Basic
import Propositional.Table.Frame

/-!
# Truth tables

A table is a formula with the names of its columns and the text to show for it. Its rows are
evaluated when they are asked for.

* `Table.make`, `Table.generate` — a table from a formula, and from a text; too many variables are
  refused.
* `Table.lines`, `Table.frameAs`, `Table.frame` — the whole table in one of its forms.
* `Table.print`, `Table.render` — what is written when it is written out. The bordered layout is
  written line by line while the rows are evaluated, the other formats in one piece.
-/

namespace Propositional

/-- The names of the columns. Those of an expression can grow; those that were given cannot. -/
inductive Columns where
  | fixed (names : List String)
  | growing (names : NameSet)
  deriving DecidableEq, Repr

def Columns.names : Columns → List String
  | fixed names => names
  | growing names => names.names

structure Table where
  text : String
  formula : Formula
  columns : Columns

/-- Why a text has no table. -/
inductive GenerateError where
  | read (error : ReadError)
  | tooManyVariables (error : TooManyVariables)
  deriving DecidableEq, Repr

/-- Why the table of a text cannot be printed. -/
inductive PrintError where
  | generate (error : GenerateError)
  | eval (error : EvalError)
  deriving Repr

/-- Why a table cannot be shown. -/
inductive RenderError where
  | eval (error : EvalError)
  | unknownFormat (name : String)
  /-- There are more rows than can be counted. -/
  | uncountable
  deriving Repr

namespace Table

def names (t : Table) : List String := t.columns.names

/-- A table, if its names are not too many. -/
def make (text : String) (formula : Formula) (columns : Columns) (limit : Int) :
    Except TooManyVariables Table :=
  (checkCount columns.names.length limit).map fun _ => ⟨text, formula, columns⟩

/-- The table of an expression that has been read from a text. -/
def ofReading (text : String) (reading : Reading) (limit : Int) : Except TooManyVariables Table :=
  make text reading.formula (.growing reading.names) limit

/-- The table of a text in the language of a lexer. -/
def generate (lexer : Lexer) (text : String) (limit : Int) : Except GenerateError Table := do
  let reading ← (lexer.read text).mapError .read
  (ofReading text reading limit).mapError .tooManyVariables

def headings (t : Table) : List String := t.names ++ [t.text]

def layout (t : Table) : Layout := ⟨t.names, t.text⟩

/-- The place before the first row. -/
def openRows (t : Table) : RowCursor := .start t.formula t.names

/-- The place before the first line. -/
def openLines (t : Table) : LineCursor := .start t.text t.openRows

def rows (t : Table) : Except EvalError (List Row) := allRows t.formula t.names

/-- The lines of the bordered layout. -/
def lines (t : Table) : Except EvalError (List String) :=
  t.rows.map fun rows =>
    tableLines t.layout (rows.map fun row => (row.assignment.bits, if row.result then 1 else 0))

/-- The bordered layout as one text. -/
def format (t : Table) : Except EvalError String := t.lines.map ("\n".intercalate ·)

/-- The table as a frame of the given kind. -/
def frameAs (F : Type) [FrameLike F] (t : Table) : Except EvalError F :=
  t.rows.map (FrameLike.ofRows F t.headings)

def frame (t : Table) : Except EvalError Frame := t.frameAs Frame

/-- The number of rows, if it is less than `2 ^ 63`. -/
def rowCount (t : Table) : Except RenderError Nat :=
  if t.names.length < 63 then .ok (assignmentCount t.names.length) else .error .uncountable

/-- The written form. -/
def display (t : Table) : Except RenderError String :=
  t.rowCount.map fun count =>
    "TruthTable(" ++ quote t.text ++ ", " ++ toString t.names.length ++ " variables, " ++
      toString count ++ " rows)"

/-- Writes the bordered layout out, a line feed after every line. -/
def print (t : Table) : Printout EvalError := t.openLines.print t.names ""

/-- Writes the table of a text out, in the language of a lexer. -/
def printText (lexer : Lexer) (text : String) (limit : Int) : Printout PrintError :=
  match generate lexer text limit with
  | .error e => ⟨"", some (.generate e)⟩
  | .ok t => t.print.mapFailure .eval

/-- The table as a frame, in the format with the given name. An unknown name is found out after the
table has been evaluated. -/
def renderFrame (t : Table) (format : String) : Except RenderError String := do
  let frame ← t.frame.mapError .eval
  match format with
  | "frame" => .ok (frame.aligned ++ "\n")
  | "csv" => .ok frame.csv
  | "json" => .ok (frame.json ++ "\n")
  | _ => .error (.unknownFormat format)

/-- Writes the table out in the format with the given name. -/
def render (t : Table) (format : String) : Printout RenderError :=
  if format = "table" then t.print.mapFailure .eval else .ofExcept (t.renderFrame format)

end Table

def RenderError.message : RenderError → String
  | .eval error => error.message
  | .unknownFormat name => "Unknown output format " ++ quote name
  | .uncountable => "cannot fit 'int' into an index-sized integer"

end Propositional
