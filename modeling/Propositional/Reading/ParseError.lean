import Propositional.Token.Lexer

/-!
# Why an expression is refused

A token sequence is refused at a token that cannot follow the ones before it, or at its end. Each
cause names the tokens that it concerns; from them come its kind, its wording and its span.

* `ParseError.kind`, `ParseError.message`, `ParseError.start`, `ParseError.stop`.
* `ReadError` — every way in which a text can fail to be an expression.
-/

namespace Propositional

/-- What could have stood in the place of an unexpected token. -/
inductive Expectation where
  | operatorOrClosing
  | binaryOrClosing
  | operandOrOperator
  deriving DecidableEq, Repr

def Expectation.wording : Expectation → String
  | operatorOrClosing => "an operator or ')'"
  | binaryOrClosing => "a binary operator or ')'"
  | operandOrOperator => "an operand or an operator"

inductive Side where
  | left
  | right
  deriving DecidableEq, Repr

def Side.wording : Side → String
  | left => "left"
  | right => "right"

/-- The kinds of refusal. -/
inductive ParseErrorKind where
  | unexpectedToken
  | unmatchedParen
  | emptyExpression
  | missingOperand
  deriving DecidableEq, Repr

namespace ParseErrorKind

def all : List ParseErrorKind := [unexpectedToken, unmatchedParen, emptyExpression, missingOperand]

def name : ParseErrorKind → String
  | unexpectedToken => "UnexpectedToken"
  | unmatchedParen => "UnmatchedParen"
  | emptyExpression => "EmptyExpression"
  | missingOperand => "MissingOperand"

def ofName? (name : String) : Option ParseErrorKind := all.find? (·.name == name)

end ParseErrorKind

/-- The causes of a refusal. -/
inductive ParseError where
  | unexpected (expected : Expectation) (found : Token)
  | missingOperand (side : Side) (op : Token)
  | unmatchedClosing (closing : Token)
  | neverClosed (opening : Token)
  | emptyParentheses (opening closing : Token)
  /-- Nothing but blanks and opening parentheses up to the end, which is at `length`. -/
  | emptyExpression (length : Int)
  deriving DecidableEq, Repr

namespace ParseError

def kind : ParseError → ParseErrorKind
  | unexpected _ _ => .unexpectedToken
  | missingOperand _ _ => .missingOperand
  | unmatchedClosing _ | neverClosed _ => .unmatchedParen
  | emptyParentheses _ _ | emptyExpression _ => .emptyExpression

def message : ParseError → String
  | unexpected expected found =>
    "Expected " ++ expected.wording ++ " but found " ++ found.phrase
  | missingOperand side op => "Missing " ++ side.wording ++ " operand of " ++ op.phrase
  | unmatchedClosing _ => "Closing parenthesis has no matching '('"
  | neverClosed _ => "Opening parenthesis is never closed"
  | emptyParentheses _ _ => "Empty parentheses"
  | emptyExpression _ => "Expression is empty"

def start : ParseError → Int
  | unexpected _ t | missingOperand _ t | unmatchedClosing t | neverClosed t
  | emptyParentheses t _ => t.start
  | emptyExpression _ => 0

def stop : ParseError → Int
  | unexpected _ t | missingOperand _ t | unmatchedClosing t | neverClosed t
  | emptyParentheses _ t => t.stop
  | emptyExpression length => length

end ParseError

/-- Why reverse Polish notation is the notation of no formula. -/
inductive PolishError where
  /-- An operator has fewer operands before it than it needs. -/
  | noOperand
  /-- Not one formula is left at the end, but this many. -/
  | leftover (count : Nat)
  /-- An operator has no meaning. -/
  | unbound
  deriving DecidableEq, Repr

def PolishError.message : PolishError → String
  | .noOperand => "pop from empty list"
  | .leftover count => "Invalid RPN, " ++ toString count ++ " operands left"
  | .unbound => "'NoneType' object has no attribute 'arity'"

/-- Every way in which a text can fail to be an expression. -/
inductive ReadError where
  | lex (error : LexError)
  | parse (error : ParseError)
  /-- The operator groups neither to the left nor to the right. -/
  | side (op : Token) (text : String)
  | polish (error : PolishError)
  deriving DecidableEq, Repr

end Propositional
