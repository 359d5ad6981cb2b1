import Propositional.Table.Layout
import Propositional.Value.Json

/-!
# Data frames

A frame holds a table column by column, each column with its label. Labels may be equal, so a column
is known by its number until all of them are there, and is labelled by its place then.

* `FrameLike` — what is asked of frames; `LawfulFrameLike` — what they promise.
* `FrameLike.ofRows` — the frame of some rows.
* `Frame` — frames as they are written out.
* `Frame.csv`, `Frame.json`, `Frame.aligned` — its written forms.
-/

namespace Propositional

/-! ## Frames of any kind -/

/-- A kind of frames: made of numbered columns, labelled anew, and read again. -/
class FrameLike (F : Type) where
  ofColumns : List (Nat × Array Bool) → F
  relabel : F → List String → F
  labels : F → List String
  columns : F → List (Array Bool)

/-- Columns of one length that have numbers of their own keep their order, and as many labels as
there are columns are given to them by place. -/
class LawfulFrameLike (F : Type) [FrameLike F] : Prop where
  columns_ofColumns : ∀ numbered : List (Nat × Array Bool), (numbered.map (·.1)).Nodup →
    (∀ c ∈ numbered, ∀ d ∈ numbered, c.2.size = d.2.size) →
      FrameLike.columns (FrameLike.ofColumns numbered : F) = numbered.map (·.2)
  labels_relabel : ∀ (f : F) (names : List String),
    names.length = (FrameLike.columns f).length → FrameLike.labels (FrameLike.relabel f names) = names
  columns_relabel : ∀ (f : F) (names : List String),
    names.length = (FrameLike.columns f).length →
      FrameLike.columns (FrameLike.relabel f names) = FrameLike.columns f

/-- Puts each digit at the end of its column. A column without a digit stays as it is, and a digit
without a column is lost. -/
def addDigits : List (Array Bool) → List Bool → List (Array Bool)
  | column :: columns, bit :: bits => column.push bit :: addDigits columns bits
  | columns, _ => columns

/-- The columns of some rows, one for each heading. -/
def columnsOf (headings : List String) (rows : List Row) : List (Array Bool) :=
  rows.foldl (fun columns row => addDigits columns (row.assignment.bits ++ [row.result]))
    (headings.map fun _ => #[])

/-- The columns with their numbers, from zero. -/
def numbered (columns : List (Array Bool)) : List (Nat × Array Bool) :=
  columns.zipIdx.map Prod.swap

/-- The frame of some rows under the given headings. -/
def FrameLike.ofRows (F : Type) [FrameLike F] (headings : List String) (rows : List Row) : F :=
  relabel (ofColumns (numbered (columnsOf headings rows))) headings

/-! ## Frames that are written out -/

structure Frame where
  labels : List String
  columns : List (Array Bool)
  deriving DecidableEq, Repr

instance : FrameLike Frame where
  ofColumns numbered := ⟨numbered.map fun c => toString c.1, numbered.map (·.2)⟩
  relabel f labels := { f with labels }
  labels := Frame.labels
  columns := Frame.columns

instance : LawfulFrameLike Frame where
  columns_ofColumns _ _ _ := rfl
  labels_relabel _ _ _ := rfl
  columns_relabel _ _ _ := rfl

namespace Frame

/-- The number of rows. -/
def height (f : Frame) : Nat := (f.columns.head?.map Array.size).getD 0

/-- The digits of a row, from left to right. -/
def row (f : Frame) (i : Nat) : List Bool := f.columns.map (·.getD i false)

def rows (f : Frame) : List (List Bool) := (List.range f.height).map f.row

/-! ## Comma-separated values -/

/-- A field that holds a comma, a quotation mark or a line feed stands in quotation marks, which
are doubled inside. -/
def csvField (s : String) : String :=
  if s.toList.any fun c => c == ',' || c == '"' || c == '\n' then
    String.ofList ('"' :: s.toList.flatMap (fun c => if c = '"' then ['"', '"'] else [c]) ++ ['"'])
  else s

def csv (f : Frame) : String :=
  let line (fields : List String) : String := ",".intercalate fields ++ "\n"
  String.join (line (f.labels.map csvField) :: f.rows.map fun row => line (row.map digit))

/-! ## JSON -/

def json (f : Frame) : String :=
  let bit (b : Bool) : Value := .int (if b then 1 else 0)
  (Value.object [("columns", .list (f.labels.map .text)),
    ("data", .list (f.rows.map fun row => .list (row.map bit)))]).json

/-! ## Aligned columns -/

/-- A label with its line breaks and tabulations made visible. -/
def visibleLabel (s : String) : String :=
  String.ofList (s.toList.flatMap fun c => match c with
    | '\n' => ['\\', 'n']
    | '\r' => ['\\', 'r']
    | '\t' => ['\\', 't']
    | _ => [c])

/-- Every column is as wide as its label with a blank in front, digits stand at its right end, and
columns are one blank apart. -/
def aligned (f : Frame) : String :=
  let heads := f.labels.map fun label => " " ++ visibleLabel label
  let widths := heads.map String.length
  let line (row : List Bool) : String :=
    " ".intercalate (List.zipWith (fun width bit => alignRight width (digit bit)) widths row)
  "\n".intercalate (" ".intercalate heads :: f.rows.map line)

end Frame

end Propositional
