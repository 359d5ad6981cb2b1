import Propositional.CommandLine.Options
import Propositional.CommandLine.Path
import Propositional.CommandLine.Grammar
import Propositional.Table.Basic
import Propositional.Diagnostic
import Propositional.Text.Utf8
import Propositional.Text.Blank

/-!
# The command line program

The program prints the table of one expression, which is given as an argument, in a file, or on
standard input. It either prints the whole table and nothing else, or prints no table, says why
not, and ends with an exit code of its own. Where an option that is needed has been given the
separator for a value, it breaks off with a fault.

* `Command.plan` — what a command line asks for, before anything is read.
* `Command.run` — the whole program; the files and the standard input are handed in.
-/

namespace Propositional

/-- What a run of the program leaves behind. -/
structure Outcome where
  exit : Nat
  stdout : String
  stderr : String
  deriving DecidableEq, Repr

/-- What the program may read: standard input, and files by their normalised path, each with the
chunks that it is read in. -/
structure Surroundings where
  stdin : List Chunk
  openFile : String → Except FileError (List Chunk)

/-- Why no expression could be read. -/
inductive SourceError where
  | twoSources
  | severalLines
  | file (error : FileError)
  | encoding (error : Utf8Error)
  deriving DecidableEq, Repr

def SourceError.message : SourceError → String
  | twoSources => "Give the expression either as an argument or with --file, not both"
  | severalLines => "The expression must fit on a single line"
  | file error => error.message
  | encoding error => error.message

/-- Why the program breaks off in the middle: an option that needs a value was given the separator
in its place, or something has failed that no expression should lead to. -/
inductive Fault where
  | fileWithoutName
  | limitWithoutNumber
  | formatWithoutName
  | reading (error : ReadError)
  | rendering (error : RenderError)
  deriving Repr

def Fault.message : Fault → String
  | fileWithoutName => "expected str, bytes or os.PathLike object, not list"
  | limitWithoutNumber => "'>' not supported between instances of 'int' and 'list'"
  | formatWithoutName => "Unknown output format []"
  | reading error => error.message
  | rendering error => error.message

namespace Command

def usage : String :=
  "usage: truth-table [-h] [-f FILE] [--format \x7btable,frame,csv,json\x7d]\n" ++
  "                   [--max-variables MAX_VARIABLES] [--core-only] [--grammar]\n" ++
  "                   [-v]\n" ++
  "                   [expression]\n"

def help : String :=
  usage ++
  "\n" ++
  "Print the truth table of a boolean expression.\n" ++
  "\n" ++
  "positional arguments:\n" ++
  "  expression            The expression, e.g. 'A && (B || !C)'. Read from stdin\n" ++
  "                        when omitted\n" ++
  "\n" ++
  "options:\n" ++
  "  -h, --help            show this help message and exit\n" ++
  "  -f FILE, --file FILE  Read the expression from a UTF-8 text file\n" ++
  "  --format \x7btable,frame,csv,json\x7d\n" ++
  "                        Output format (default: table)\n" ++
  "  --max-variables MAX_VARIABLES\n" ++
  "                        Refuse expressions with more variables (default: 20)\n" ++
  "  --core-only           Only recognize NOT, AND and OR\n" ++
  "  --grammar             Show the recognized operator spellings and exit\n" ++
  "  -v, --verbose         Enable debug logging\n"

/-- The lexer of the language that was asked for. -/
def lexer (o : Options) : Lexer := if o.coreOnly then .core else .default

/-- Either the program is done without reading anything, or it goes on with some options. -/
def plan (arguments : List String) : Outcome ⊕ Options :=
  match Options.ofArguments arguments with
  | .error e => .inl ⟨2, "", usage ++ "truth-table: error: " ++ e.message ++ "\n"⟩
  | .ok .help => .inl ⟨0, help, ""⟩
  | .ok (.run o) => if o.grammar then .inl ⟨0, (lexer o).grammarTable, ""⟩ else .inr o

/-- The expression on the first line of a stream. -/
def expressionIn (chunks : List Chunk) : Except SourceError String :=
  ((firstLine chunks).mapError .encoding).map trim

/-- The expression, from the one place that it was given in. -/
def readExpression (o : Options) (s : Surroundings) : Except Fault (Except SourceError String) :=
  match o.expression, o.file with
  | some _, some _ => .ok (.error .twoSources)
  | some text, none =>
    let text := trim text
    .ok (if text.toList.any fun c => c == '\n' || c == '\r' then .error .severalLines else .ok text)
  | none, some (.value path) => .ok do
    expressionIn (← (s.openFile (Path.normalise path)).mapError .file)
  | none, some .separator => .error .fileWithoutName
  | none, none => .ok (expressionIn s.stdin)

/-- The limit on the number of variables. -/
def limit (o : Options) : Except Fault Int :=
  match o.maxVariables with
  | none => .ok defaultLimit
  | some (.value n) => .ok n
  | some .separator => .error .limitWithoutNumber

/-- The name of the output format. -/
def formatName (o : Options) : Except Fault String :=
  match o.format with
  | .value name => .ok name
  | .separator => .error .formatWithoutName

/-- What is said about a reading when the program is to tell more. -/
def parsedNote (reading : Reading) : String :=
  "DEBUG truth_table.parser: Parsed " ++ toString reading.polish.length ++
    " tokens into a tree over " ++ toString reading.names.size ++ " variable(s)\n"

/-- What is said about a refused text when the program is to tell more. -/
def rejectedNote (text : String) (d : Diagnostic) : String :=
  "DEBUG truth_table.cli: Rejected " ++ quote text ++ ": " ++ d.summary ++ "\n"

/-- An outcome without a table. -/
def failure (stderr : String) : Outcome := ⟨1, "", stderr⟩

/-- Prints the table of an expression. -/
def tabulate (o : Options) (text : String) : Except Fault Outcome :=
  let note (s : String) : String := if o.verbose then s else ""
  match (lexer o).read text with
  | .error e =>
    match e.diagnostic? with
    | some d => .ok (failure (note (rejectedNote text d) ++ d.report text))
    | none => .error (.reading e)
  | .ok reading => do
    match Table.ofReading text reading (← limit o) with
    | .error e => return failure (note (parsedNote reading) ++ reportMessage e.message)
    | .ok table =>
      let printout := table.render (← formatName o)
      match printout.failure with
      | none => return ⟨0, printout.text, note (parsedNote reading)⟩
      | some e => throw (.rendering e)

/-- The program from the moment its options are known. -/
def proceed (o : Options) (s : Surroundings) : Except Fault Outcome := do
  match ← readExpression o s with
  | .error e => return failure (reportMessage e.message)
  | .ok text => tabulate o text

/-- The whole program. -/
def run (arguments : List String) (s : Surroundings) : Except Fault Outcome :=
  match plan arguments with
  | .inl outcome => .ok outcome
  | .inr o => proceed o s

end Command

end Propositional
