import Propositional.Text.CellWidth

/-!
# Text on a console

What a console shows of a text: the control characters that would move the cursor are dropped, and
tabulations are filled up with blanks to the next multiple of eight columns of their line.

* `consoleText` — the text as shown.
-/

namespace Propositional

/-- The bell, the backspace, the vertical tabulation, the form feed and the carriage return. -/
def movesCursor (c : Char) : Bool :=
  let n := c.toNat
  n == 7 || n == 8 || n == 11 || n == 12 || n == 13

/-- Fills up tabulations: each becomes a blank and the blanks up to the next stop. `column` is the
place in the current line. -/
def expandTabs (column : Column) : List Char → List Char
  | [] => []
  | '\t' :: rest =>
    let place := (column.advance ' ').place
    let missing := (8 - place % 8) % 8
    ' ' :: (List.replicate missing ' ' ++ expandTabs (.after (place + missing)) rest)
  | '\n' :: rest => '\n' :: expandTabs (.after 0) rest
  | c :: rest => c :: expandTabs (column.advance c) rest

/-- A text as a console shows it. -/
def consoleText (text : String) : String :=
  String.ofList (expandTabs (.after 0) (text.toList.filter (!movesCursor ·)))

example : consoleText "ab\tc\x0bd" = "ab      cd" := by decide

end Propositional
