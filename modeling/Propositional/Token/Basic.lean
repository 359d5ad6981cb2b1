import Propositional.Connective
import Propositional.Token.Spelling
import Propositional.Text.Blank
import Propositional.Text.Slice

/-!
# Token classes and tokens

A token class belongs to a family and has attributes, some of its own and some taken over from the
class that it specialises. They settle which part its tokens play in an expression (`Role`) and which
pieces of text they are (`Pattern`). A token is a piece of text with its class and its span.

* `TokenClass.role`, `TokenClass.pattern` — what the attributes of a class come to.
* `TokenClass.specialise` — a new class, and what it takes over.
* `TokenClass.lexeme?` — the length of the token of a class that starts a text.
* `Token.phrase` — what a token is called in a message.
-/

namespace Propositional

/-- How an operator is read: what it means and how it binds. The precedence and the side may differ
from those of the connective. -/
structure Operator where
  kind : Connective
  precedence : Int
  associativity : Associativity
  deriving DecidableEq, Repr

/-- The operator that binds as its connective does. -/
def Operator.ofKind (kind : Connective) : Operator := ⟨kind, kind.precedence, kind.associativity⟩

/-- The part that a token plays in an expression. -/
inductive Role where
  | blank
  | identifier
  | operator (op : Operator)
  /-- An operator that has been given no meaning. -/
  | unbound
  | opening
  | closing
  | finish
  /-- A token that plays no part in expressions. -/
  | other
  deriving DecidableEq, Repr

/-- The pieces of text that a token class stands for. -/
inductive Pattern where
  /-- A run of blanks, as long as possible. -/
  | blanks
  /-- A letter with the letters and digits that follow it. -/
  | identifier
  /-- One text. -/
  | text (t : String)
  /-- The spellings of an operator. -/
  | spellings (ss : List String)
  /-- No pieces of text have been fixed. -/
  | undefined
  deriving DecidableEq, Repr

/-- The error of looking for a class whose pieces of text have not been fixed. -/
inductive Unmatchable where
  | undefinedPattern
  deriving DecidableEq, Repr

/-- The length of the piece of text that starts a text, if there is one. An empty text, or an empty
spelling alone, fixes nothing. -/
def Pattern.lexeme? : Pattern → List Char → Except Unmatchable (Option Nat)
  | .blanks, cs =>
    let run := cs.takeWhile isBlank
    .ok (if run.isEmpty then none else some run.length)
  | .identifier, [] => .ok none
  | .identifier, c :: cs =>
    .ok (if isLetter c then some (1 + (cs.takeWhile isWordChar).length) else none)
  | .text t, cs =>
    if t.isEmpty then .error .undefinedPattern
    else .ok (if t.toList.isPrefixOf cs then some t.length else none)
  | .spellings ss, cs =>
    if ss.isEmpty || ss = [""] then .error .undefinedPattern
    else .ok ((fittingSpelling? ss cs).map String.length)
  | .undefined, _ => .error .undefinedPattern

/-- The families of token classes. -/
inductive Family where
  | blank
  | identifier
  | operator
  | opening
  | closing
  | finish
  /-- Classes without a part in expressions. -/
  | other
  deriving DecidableEq, Repr

/-- The regular expressions that the classes of a language have. -/
inductive Regex where
  | blanks
  | identifier
  /-- One of some spellings, longer ones before shorter ones, and words as whole words. -/
  | spellings (ss : List String)
  deriving DecidableEq, Repr

/-- The regular expression of some spellings. One empty spelling makes an empty expression, which
counts as none. -/
def Regex.ofSpellings (ss : List String) : Option Regex :=
  if ss = [""] then none else some (.spellings ss)

/-- A token class with all its attributes. A precedence and a side that are not set are those of the
connective. -/
structure TokenClass where
  name : String
  family : Family
  kind : Option Connective := none
  spellings : List String := []
  regex : Option Regex := none
  text : Option String := none
  precedence : Option Int := none
  associativity : Option Associativity := none
  deriving DecidableEq, Repr

namespace TokenClass

/-- The part that the tokens of a class play. -/
def role (c : TokenClass) : Role :=
  match c.family, c.kind with
  | .blank, _ => .blank
  | .identifier, _ => .identifier
  | .operator, some kind => .operator ⟨kind, c.precedence.getD kind.precedence,
      c.associativity.getD kind.associativity⟩
  | .operator, none => .unbound
  | .opening, _ => .opening
  | .closing, _ => .closing
  | .finish, _ => .finish
  | .other, _ => .other

/-- The pieces of text that a class stands for: its regular expression counts before its text. -/
def pattern (c : TokenClass) : Pattern :=
  match c.regex, c.text with
  | some .blanks, _ => .blanks
  | some .identifier, _ => .identifier
  | some (.spellings ss), _ => .spellings ss
  | none, some t => .text t
  | none, none => .undefined

/-- The attributes that a new class sets itself, be it to nothing. -/
structure Features where
  kind : Option (Option Connective) := none
  spellings : Option (List String) := none
  regex : Option (Option Regex) := none
  text : Option (Option String) := none
  precedence : Option Int := none
  associativity : Option Associativity := none
  deriving DecidableEq, Repr

/-- A new class that specialises another one. It is of the same family and takes over what it does
not set itself. If it is an operator with spellings, whether its own or those that it has taken over,
they give it its regular expression. -/
def specialise (base : TokenClass) (name : String) (own : Features) : TokenClass :=
  let spellings := own.spellings.getD base.spellings
  { name
    family := base.family
    kind := own.kind.getD base.kind
    spellings
    regex := if base.family = .operator ∧ spellings ≠ [] then Regex.ofSpellings spellings
      else own.regex.getD base.regex
    text := own.text.getD base.text
    precedence := own.precedence.or base.precedence
    associativity := own.associativity.or base.associativity }

def isIdentifier (c : TokenClass) : Bool := c.role == .identifier

def isBlank (c : TokenClass) : Bool := c.role == .blank

/-- The operator that a class stands for. -/
def operator? (c : TokenClass) : Option Operator :=
  match c.role with
  | .operator op => some op
  | _ => none

/-- The length of the token of this class that starts a text, if there is one. -/
def lexeme? (c : TokenClass) (cs : List Char) : Except Unmatchable (Option Nat) :=
  c.pattern.lexeme? cs

/-- The token of this class that starts at a place in a text, as its value and its length. A class
with one text counts a place before the beginning from the end and finds nothing past the end;
any other class moves the place into the text and measures from the place that was asked for. -/
def matchAt (c : TokenClass) (text : String) (place : Int) :
    Except Unmatchable (Option (String × Int)) :=
  let cs := text.toList
  let start := match c.pattern with
    | .text _ => clamp 0 cs.length (fromFront cs.length place)
    | _ => clamp 0 cs.length place
  let shift := match c.pattern with
    | .text _ => 0
    | _ => start - place
  let rest := cs.drop start.toNat
  (c.lexeme? rest).map fun found =>
    found.map fun n => (String.ofList (rest.take n), n + shift)

end TokenClass

structure Token where
  cls : TokenClass
  value : String
  start : Int
  stop : Int
  deriving DecidableEq, Repr

namespace Token

def role (t : Token) : Role := t.cls.role

/-- An operator, whether or not it has been given a meaning. -/
def isOperator (t : Token) : Bool :=
  match t.role with
  | .operator _ | .unbound => true
  | _ => false

/-- A token with its class, its value and its beginning. -/
def display (t : Token) : String :=
  match t.role with
  | .finish => "<" ++ t.cls.name ++ " @" ++ toString t.start ++ ">"
  | _ => "<" ++ t.cls.name ++ " " ++ quote t.value ++ " @" ++ toString t.start ++ ">"

/-- What a token is called in a message. -/
def phrase (t : Token) : String :=
  match t.role with
  | .identifier => "variable " ++ quote t.value
  | .operator _ | .unbound => "operator " ++ quote t.value
  | .opening => "'('"
  | .closing => "')'"
  | .finish => "end of input"
  | .blank | .other => t.display

end Token

end Propositional
