import Propositional.Reading.ParseError
import Propositional.NameSet

/-!
# The shunting yard

Tokens are read once, left to right, and put into reverse Polish notation. Operands go straight to
the output; operators and groups wait on a stack until their operands are complete. While an
operand has to come next, the top of the stack is the token that was read last, so the stack alone
tells what is missing. A token that cannot stand where it does is refused when it is read.

* `Yard.step` — what one token does.
* `Yard.run`, `Yard.finish` — a sequence of tokens, and its end.
* `Polish.ofTokens`, `Polish.ofScan` — the reverse Polish notation of tokens and of a scanned text,
  with the names that occur in it.
-/

namespace Propositional

/-- Tokens in reverse Polish notation, and the variables in order of first occurrence. -/
structure Polish where
  tokens : List Token
  names : NameSet
  deriving DecidableEq, Repr

/-- What waits on the stack: a group that has been opened, or an operator. -/
inductive Pending where
  | group (opening : Token)
  | operator (op : Operator) (token : Token)
  deriving DecidableEq, Repr

namespace Pending

def token : Pending → Token
  | group t | operator _ t => t

def isGroup : Pending → Bool
  | group _ => true
  | operator _ _ => false

end Pending

/-- The state between two tokens. -/
structure Yard where
  /-- The output so far, latest first. -/
  emitted : List Token
  /-- The stack, top first. -/
  pending : List Pending
  names : NameSet
  /-- Whether an operand has to come next. -/
  expectsOperand : Bool
  deriving DecidableEq, Repr

namespace Yard

def start : Yard := ⟨[], [], .empty, true⟩

/-- Whether a binary operator takes the operator before it as complete; as an error, what it says
about its side. -/
def completes (op before : Operator) : Except String Bool :=
  match op.associativity with
  | .left => .ok (op.precedence ≤ before.precedence)
  | .right => .ok (op.precedence < before.precedence)
  | .invalid text => .error text

/-- Moves the operators that are complete before the given one from the stack to the output. -/
def release (op : Operator) (t : Token) :
    List Pending → List Token → Except ReadError (List Pending × List Token)
  | .operator before u :: rest, emitted =>
    match completes op before with
    | .ok true => release op t rest (u :: emitted)
    | .ok false => .ok (.operator before u :: rest, emitted)
    | .error text => .error (.side t text)
  | pending, emitted => .ok (pending, emitted)

/-- Moves the operators of the innermost group to the output and takes the group off the stack. -/
def closeGroup : List Pending → List Token → List Pending × List Token
  | .operator _ u :: rest, emitted => closeGroup rest (u :: emitted)
  | .group _ :: rest, emitted => (rest, emitted)
  | [], emitted => ([], emitted)

/-- Moves everything to the output; a group on the stack was never closed. -/
def drain : List Pending → List Token → Except ReadError (List Token)
  | [], emitted => .ok emitted.reverse
  | .group opening :: _, _ => .error (.parse (.neverClosed opening))
  | .operator _ u :: rest, emitted => drain rest (u :: emitted)

/-- A closing parenthesis needs a group to close, with an operand at its end. -/
def close (y : Yard) (t : Token) : Except ReadError Yard :=
  if !y.pending.any Pending.isGroup then .error (.parse (.unmatchedClosing t))
  else
    match y.expectsOperand, y.pending with
    | true, .group opening :: _ => .error (.parse (.emptyParentheses opening t))
    | true, .operator _ u :: _ => .error (.parse (.missingOperand .right u))
    | _, pending =>
      let (pending, emitted) := closeGroup pending y.emitted
      .ok { y with pending, emitted }

/-- What one token before the end does. -/
def step (y : Yard) (t : Token) : Except ReadError Yard :=
  match t.role with
  | .identifier =>
    if y.expectsOperand then
      .ok { y with
        emitted := t :: y.emitted, names := y.names.add t.value, expectsOperand := false }
    else .error (.parse (.unexpected .operatorOrClosing t))
  | .opening =>
    if y.expectsOperand then .ok { y with pending := .group t :: y.pending }
    else .error (.parse (.unexpected .operatorOrClosing t))
  | .closing => y.close t
  | .operator op =>
    if op.kind.arity = 1 then
      if y.expectsOperand then .ok { y with pending := .operator op t :: y.pending }
      else .error (.parse (.unexpected .binaryOrClosing t))
    else if y.expectsOperand then .error (.parse (.missingOperand .left t))
    else do
      let (pending, emitted) ← release op t y.pending y.emitted
      .ok { y with pending := .operator op t :: pending, emitted, expectsOperand := true }
  | .unbound => .error (.polish .unbound)
  | .blank | .finish | .other => .error (.parse (.unexpected .operandOrOperator t))

/-- The end of the tokens, at the given place. -/
def finish (y : Yard) (place : Int) : Except ReadError Polish :=
  match y.expectsOperand, y.pending with
  | false, pending => (drain pending y.emitted).map (⟨·, y.names⟩)
  | true, [] => .error (.parse (.emptyExpression place))
  | true, .operator _ u :: _ => .error (.parse (.missingOperand .right u))
  | true, .group opening :: rest =>
    if y.names.isEmpty && rest.all Pending.isGroup then .error (.parse (.emptyExpression place))
    else .error (.parse (.neverClosed opening))

/-- The end of tokens without a closing one. The place matters only while an operand has to come
next, and then the last token is on top of the stack. -/
def finishOpen (y : Yard) : Except ReadError Polish :=
  y.finish ((y.pending.head?.map (·.token.stop)).getD 0)

/-- Reads tokens up to the first that marks the end; `after` says what happens if none does. -/
def run (after : Yard → Except ReadError Polish) (y : Yard) : List Token → Except ReadError Polish
  | [] => after y
  | t :: rest => if t.role = .finish then y.finish t.stop else do run after (← y.step t) rest

end Yard

/-- The reverse Polish notation of some tokens. -/
def Polish.ofTokens (tokens : List Token) : Except ReadError Polish :=
  Yard.start.run Yard.finishOpen tokens

/-- The reverse Polish notation of a scan: what ends the scan is met when its tokens have been
read. An empty token met over and over is met twice at least. -/
def Polish.ofScan (scan : Scan) : Except ReadError Polish :=
  Yard.start.run (fun y => match scan.ending with
    | .complete => y.finishOpen
    | .failed error => .error (.lex error)
    | .repeating t => y.run Yard.finishOpen [t, t]) scan.tokens

end Propositional
