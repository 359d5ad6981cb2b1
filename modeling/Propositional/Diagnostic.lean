import Propositional.Reading.ParseError
import Propositional.Text.Console

/-!
# Diagnostics

A diagnostic is an error with the span of text it concerns. It is reported in three lines: the
source, a caret under the beginning of the span, and the message behind a bar in the same column.

* `Diagnostic.summary` — span and message in one line.
* `Diagnostic.report` — the three lines.
-/

namespace Propositional

structure Diagnostic where
  /-- What kind of refusal it is, if it comes from the order of tokens. -/
  kind : Option ParseErrorKind
  text : String
  start : Int
  stop : Int
  deriving DecidableEq, Repr

namespace Diagnostic

/-- The text that nothing was recognised in, and its place. -/
def unrecognized (piece : String) (position : Int) : Diagnostic :=
  ⟨none, "Unrecognized character " ++ quote piece, position, position + 1⟩

def ofParseError (e : ParseError) : Diagnostic := ⟨some e.kind, e.message, e.start, e.stop⟩

/-- The message with its kind in front. -/
def message (d : Diagnostic) : String :=
  match d.kind with
  | some kind => kind.name ++ ": " ++ d.text
  | none => d.text

/-- The message behind its span. -/
def summary (d : Diagnostic) : String :=
  "@[" ++ toString d.start ++ ", " ++ toString d.stop ++ "]: " ++ d.message

/-- What stands in front of every reported error. -/
def tag : String := "[ERROR]: "

/-- The source between two marks: what lies before the span, in it, and behind it. The span is
moved into the source where it leaves it at the end. -/
def sourceLine (d : Diagnostic) (source : String) : String :=
  let cs := source.toList
  let start := min d.start cs.length
  let stop := min (max d.stop start) cs.length
  tag ++ String.ofList (slice cs 0 start ++ slice cs start stop ++ slice cs stop cs.length)

/-- The columns in front of the caret. -/
def indent (d : Diagnostic) (source : String) : Nat :=
  (tag.length + min d.start source.length).toNat

def caretLine (d : Diagnostic) (source : String) : String :=
  String.ofList (List.replicate (d.indent source) ' ') ++ "^"

def messageLine (d : Diagnostic) (source : String) : String :=
  String.ofList (List.replicate (d.indent source) '-') ++ "┆ " ++ d.message

/-- The report of an error in a source, as a console shows it. -/
def report (d : Diagnostic) (source : String) : String :=
  String.join ([d.sourceLine source, d.caretLine source, d.messageLine source].map
    fun line => consoleText line ++ "\n")

end Diagnostic

/-- The report of an error that concerns no span of text. -/
def reportMessage (message : String) : String := consoleText (Diagnostic.tag ++ message) ++ "\n"

namespace ReadError

/-- The diagnostic of an error that concerns a span of text. -/
def diagnostic? : ReadError → Option Diagnostic
  | .lex (.unrecognized c position) => some (.unrecognized (String.singleton c) position)
  | .parse e => some (.ofParseError e)
  | _ => none

def message (e : ReadError) : String :=
  match e with
  | .lex (.unrecognized c position) =>
    (Diagnostic.unrecognized (String.singleton c) position).summary
  | .parse e => (Diagnostic.ofParseError e).summary
  | .lex .unmatchable => ""
  | .side op text => op.display ++ " has invalid associativity value " ++ quote text
  | .polish e => e.message

end ReadError

end Propositional
