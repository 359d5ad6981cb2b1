import Propositional.Table.Layout
import Propositional.Token.Lexer

/-!
# The table of operators

What a lexer's language offers, as a table with frame lines: every operator with its precedence,
its side and its spellings, tightest binding first. A title stands above and a caption below, both
centred on the width of the table.

* `Lexer.grammarTable` — the table.
-/

namespace Propositional

/-- A text at the left end of a field of the given width. -/
def alignLeft (width : Nat) (text : String) : String :=
  text ++ String.ofList (List.replicate (width - text.length) ' ')

/-- A text in the middle of a field of the given width, the odd blank behind it. -/
def alignCentre (width : Nat) (text : String) : String :=
  let before := (width - text.length) / 2
  alignLeft width (String.ofList (List.replicate before ' ') ++ text)

/-- Fills lines with words, as many on a line as fit. -/
def fillLines (width : Nat) (line : String) : List String → List String
  | [] => [line]
  | word :: rest =>
    if line.isEmpty then fillLines width word rest
    else if line.length + 1 + word.length ≤ width then
      fillLines width (line ++ " " ++ word) rest
    else line :: fillLines width word rest

namespace Grammar

def title : String := "Operators, tightest binding first"

def captionWords : List String :=
  ["Variables", "are", "letters", "followed", "by", "letters", "or", "digits,", "case-sensitive.",
    "Word", "operators", "are", "reserved", "upper-case", "words."]

def headings : List String := ["Operator", "Precedence", "Associativity", "Spellings"]

/-- What the table says about the side of an operator. -/
def sideText (kind : Connective) : String :=
  if kind.arity = 1 then "prefix"
  else match kind.associativity with
    | .left => "left"
    | .right => "right"
    | .invalid text => text

/-- Puts an operator in front of the ones that do not bind tighter. -/
def insertByPrecedence (op : TokenClass × Connective) :
    List (TokenClass × Connective) → List (TokenClass × Connective)
  | [] => [op]
  | other :: rest =>
    if op.2.precedence < other.2.precedence then other :: insertByPrecedence op rest
    else op :: other :: rest

/-- The cells of an operator. -/
def cells (op : TokenClass × Connective) : List String :=
  [op.2.name, toString op.2.precedence, sideText op.2, "  ".intercalate op.1.spellings]

/-- A line across the table, with the given ends, joints and stroke. -/
def stroke (left joint right line : Char) (widths : List Nat) : String :=
  let runs := widths.map fun width => String.ofList (List.replicate (width + 2) line)
  left.toString ++ joint.toString.intercalate runs ++ right.toString

/-- A line of cells; numbers stand to the right. -/
def cellLine (bar : String) (widths : List Nat) (texts : List String) : String :=
  let aligned := (List.zip widths texts).zipIdx.map fun ((width, text), column) =>
    if column = 1 then alignRight width text else alignLeft width text
  bar ++ " " ++ (" " ++ bar ++ " ").intercalate aligned ++ " " ++ bar

end Grammar

open Grammar in
/-- The table of the operators of a language. -/
def Lexer.grammarTable (lexer : Lexer) : String :=
  let operators := (lexer.operators.map fun (c, op) => (c, op.kind)).foldr insertByPrecedence []
  let rows := operators.map cells
  let widths := headings.zipIdx.map fun (heading, column) =>
    rows.foldl (fun width row => max width ((row[column]?.map String.length).getD 0))
      heading.length
  let width := widths.foldl (· + ·) 0 + 3 * widths.length + 1
  let lines := [stroke '┏' '┳' '┓' '━' widths, cellLine "┃" widths headings,
      stroke '┡' '╇' '┩' '━' widths] ++
    rows.map (cellLine "│" widths) ++ [stroke '└' '┴' '┘' '─' widths]
  String.join ((alignCentre width title :: lines ++
    (fillLines width "" captionWords).map (alignCentre width)).map (· ++ "\n"))

end Propositional
