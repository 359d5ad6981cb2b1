import Propositional.Text.Integer

/-!
# Command line options

Arguments are first told apart — options, words, and the separator that ends the options — and
then acted on from left to right. A long option may be shortened as long as no other one begins the
same way, and takes its value behind an equals sign or as the next word. Short options may be
joined, and the last of them takes its value from the rest of the word or as the next word.

* `classify` — what one argument is.
* `Options.ofArguments` — the options of a command line.
* `UsageError.message` — what is wrong with it.
-/

namespace Propositional

inductive Flag where
  | help
  | file
  | format
  | maxVariables
  | coreOnly
  | grammar
  | verbose
  deriving DecidableEq, Repr

namespace Flag

/-- The names of the options, in the order in which they are listed. -/
def names : List (String × Flag) :=
  [("-h", help), ("--help", help), ("-f", file), ("--file", file), ("--format", format),
    ("--max-variables", maxVariables), ("--core-only", coreOnly), ("--grammar", grammar),
    ("-v", verbose), ("--verbose", verbose)]

def ofName? (name : String) : Option Flag := names.lookup name

def takesValue : Flag → Bool
  | file | format | maxVariables => true
  | _ => false

/-- All names of an option, as a message gives them. -/
def title (flag : Flag) : String :=
  "/".intercalate ((names.filter (·.2 == flag)).map (·.1))

end Flag

/-- The names of the output formats. -/
def outputFormats : List String := ["table", "frame", "csv", "json"]

/-- Why a text is not a number of at least one. -/
inductive CountError where
  | notInteger (error : IntegerError)
  | notPositive (text : String)
  deriving DecidableEq, Repr

def CountError.message : CountError → String
  | notInteger error => error.message
  | notPositive text => "must be a positive integer, got " ++ text

/-- A whole number of at least one. -/
def readCount (text : String) : Except CountError Int :=
  match readInteger text with
  | .error e => .error (.notInteger e)
  | .ok n => if n < 1 then .error (.notPositive text) else .ok n

/-- What is wrong with a command line. -/
inductive UsageError where
  | ambiguous (argument : String) (candidates : List String)
  /-- An option that takes no value was given one. -/
  | ignoredValue (flag : Flag) (value : String)
  | missingValue (flag : Flag)
  | badCount (flag : Flag) (value : String) (error : CountError)
  | badChoice (flag : Flag) (value : String)
  | unrecognized (arguments : List String)
  deriving DecidableEq, Repr

namespace UsageError

/-- A message about one option. -/
def about (flag : Flag) (text : String) : String := "argument " ++ flag.title ++ ": " ++ text

def message : UsageError → String
  | ambiguous argument candidates =>
    "ambiguous option: " ++ argument ++ " could match " ++ ", ".intercalate candidates
  | ignoredValue flag value => about flag ("ignored explicit argument " ++ quote value)
  | missingValue flag => about flag "expected one argument"
  | badCount flag value (.notInteger _) =>
    about flag ("invalid positive_int value: " ++ quote value)
  | badCount flag _ error => about flag error.message
  | badChoice flag value =>
    about flag ("invalid choice: " ++ quote value ++ " (choose from " ++
      ", ".intercalate (outputFormats.map quote) ++ ")")
  | unrecognized arguments => "unrecognized arguments: " ++ " ".intercalate arguments

end UsageError

/-! ## Telling arguments apart -/

/-- What an argument is. -/
inductive Word where
  | plain (text : String)
  /-- The argument that ends the options. -/
  | separator
  /-- A known option; `short` says whether further short options may be joined to it, `attached` is
  what stands behind it in the same argument. -/
  | option (flag : Flag) (short : Bool) (attached : Option (List Char))
  | unknown (text : String)
  deriving DecidableEq, Repr

/-- A decimal number below zero: digits, perhaps with a point among or before them, behind a minus
sign. A line feed may follow. -/
def isNegativeNumber : List Char → Bool
  | '-' :: rest =>
    let isDigit (c : Char) : Bool := (decimalDigit? c).isSome
    let rest := if rest.getLast? == some '\n' then rest.dropLast else rest
    match rest.dropWhile isDigit with
    | [] => !rest.isEmpty
    | '.' :: decimals => !decimals.isEmpty && decimals.all isDigit
    | _ => false
  | _ => false

/-- The parts of an argument before and behind its first equals sign. -/
def splitEquals (argument : String) : String × Option (List Char) :=
  let name := String.ofList (argument.toList.takeWhile (· != '='))
  match argument.toList.dropWhile (· != '=') with
  | [] => (name, none)
  | _ :: value => (name, some value)

/-- An argument that starts with a dash and is not the whole name of an option. -/
def classifyAbbreviated (argument : String) : Except UsageError Word :=
  let rest : Word :=
    if isNegativeNumber argument.toList || argument.toList.contains ' ' then .plain argument
    else .unknown argument
  match argument.toList with
  | '-' :: '-' :: _ =>
    let (name, attached) := splitEquals argument
    match Flag.names.filter fun entry => name.toList.isPrefixOf entry.1.toList with
    | [] => .ok rest
    | [(_, flag)] => .ok (.option flag false attached)
    | candidates => .error (.ambiguous argument (candidates.map (·.1)))
  | '-' :: c :: attached =>
    match Flag.ofName? (String.ofList ['-', c]) with
    | some flag => .ok (.option flag true (some attached))
    | none => .ok rest
  | _ => .ok rest

/-- What an argument is that stands before any separator. -/
def classify (argument : String) : Except UsageError Word :=
  if argument.toList.head? != some '-' then .ok (.plain argument)
  else
    let isShort (name : String) : Bool := !("--".toList.isPrefixOf name.toList)
    match Flag.ofName? argument with
    | some flag => .ok (.option flag (isShort argument) none)
    | none =>
      if argument = "-" then .ok (.plain argument)
      else
        match splitEquals argument with
        | (name, some value) =>
          match Flag.ofName? name with
          | some flag => .ok (.option flag (isShort name) (some value))
          | none => classifyAbbreviated argument
        | (_, none) => classifyAbbreviated argument

/-- What the arguments are. Behind the separator all are plain. -/
def classifyAll : List String → Except UsageError (List Word)
  | [] => .ok []
  | "--" :: rest => .ok (.separator :: rest.map .plain)
  | argument :: rest => do
    let word ← classify argument
    return word :: (← classifyAll rest)

/-! ## Acting on them -/

/-- What an option was given: a value, or nothing but the separator, which is no value. -/
inductive Given (α : Type) where
  | value (a : α)
  | separator
  deriving DecidableEq, Repr

/-- What a text gives an option whose values are read in some way. -/
def Given.ofText {α : Type} (read : String → Except UsageError α) (text : String) :
    Except UsageError (Given α) :=
  if text = "--" then .ok .separator else (read text).map .value

structure Options where
  expression : Option String
  file : Option (Given String)
  format : Given String
  maxVariables : Option (Given Int)
  coreOnly : Bool
  grammar : Bool
  verbose : Bool
  deriving DecidableEq, Repr

/-- What a command line asks for. -/
inductive Request where
  | help
  | run (options : Options)
  deriving DecidableEq, Repr

namespace Options

def default : Options := ⟨none, none, .value "table", none, false, false, false⟩

/-- An option that takes no value. -/
def set (o : Options) : Flag → Options
  | .coreOnly => { o with coreOnly := true }
  | .grammar => { o with grammar := true }
  | .verbose => { o with verbose := true }
  | _ => o

/-- An option with its value. -/
def assign (o : Options) (flag : Flag) (value : String) : Except UsageError Options :=
  match flag with
  | .file => do
    return { o with file := some (← Given.ofText .ok value) }
  | .format => do
    let read (text : String) : Except UsageError String :=
      if outputFormats.contains text then .ok text else .error (.badChoice .format text)
    return { o with format := ← Given.ofText read value }
  | .maxVariables => do
    let read (text : String) : Except UsageError Int :=
      (readCount text).mapError (.badCount .maxVariables text)
    return { o with maxVariables := some (← Given.ofText read value) }
  | flag => .ok (o.set flag)

/-- The options that are joined in one argument: those without a value, and the last one with what
is attached to it. -/
def cluster (flag : Flag) (short : Bool) :
    Option (List Char) → Except UsageError (List Flag × Flag × Option String)
  | none => .ok ([], flag, none)
  | some attached =>
    if flag.takesValue then .ok ([], flag, some (String.ofList attached))
    else if !short then .error (.ignoredValue flag (String.ofList attached))
    else go flag attached
where
  /-- Reads the characters that follow a short option without a value. -/
  go (flag : Flag) : List Char → Except UsageError (List Flag × Flag × Option String)
    | [] => .error (.ignoredValue flag "")
    | c :: rest =>
      match Flag.ofName? (String.ofList ['-', c]) with
      | none => .error (.ignoredValue flag (String.ofList (c :: rest)))
      | some next =>
        if rest.isEmpty then .ok ([flag], next, none)
        else if next.takesValue then .ok ([flag], next, some (String.ofList rest))
        else (go next rest).map fun (flags, last, value) => (flag :: flags, last, value)

/-- The state while arguments are acted on: the options so far, whether the expression has been
given, and the arguments that have no place. -/
structure Progress where
  options : Options
  placed : Bool
  extra : List String

/-- Gives the expression its place; a second one has none. -/
def Progress.place (p : Progress) (text : String) : Progress :=
  if p.placed then { p with extra := p.extra ++ [text] }
  else { p with options := { p.options with expression := some text }, placed := true }

/-- The options after one argument that joins some; nothing when help was asked for, which comes
before what stands behind it. -/
def perform (o : Options) (flags : List Flag) (last : Flag) (value : Option String) :
    Except UsageError (Option Options) :=
  if flags.contains .help then .ok none
  else
    match value with
    | some value => (assign (flags.foldl set o) last value).map some
    | none => .ok (if last = .help then none else some ((flags ++ [last]).foldl set o))

/-- Acts on arguments from left to right. The separator belongs to the expression next to it. -/
def act (p : Progress) : List Word → Except UsageError Request
  | [] => if p.extra.isEmpty then .ok (.run p.options) else .error (.unrecognized p.extra)
  | .unknown text :: rest => act { p with extra := p.extra ++ [text] } rest
  | .plain text :: .separator :: rest =>
    if p.placed then act { p with extra := p.extra ++ [text, "--"] } rest
    else act (p.place text) rest
  | .plain text :: rest => act (p.place text) rest
  | .separator :: rest =>
    if p.placed then act { p with extra := p.extra ++ ["--"] } rest else act p rest
  | .option flag short attached :: rest =>
    match cluster flag short attached with
    | .error e => .error e
    | .ok (flags, last, value) =>
      if last.takesValue && value.isNone then
        match rest with
        | .plain value :: rest =>
          match perform p.options flags last (some value) with
          | .error e => .error e
          | .ok none => .ok .help
          | .ok (some options) => act { p with options } rest
        | _ => .error (.missingValue last)
      else
        match perform p.options flags last value with
        | .error e => .error e
        | .ok none => .ok .help
        | .ok (some options) => act { p with options } rest

/-- What a command line asks for. -/
def ofArguments (arguments : List String) : Except UsageError Request := do
  act ⟨default, false, []⟩ (← classifyAll arguments)

end Options

end Propositional
