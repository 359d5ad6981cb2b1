import Propositional.Reading.Yard
import Propositional.Formula.Traversal

/-!
# Reading expressions

An expression is read in two steps: its tokens are put into reverse Polish notation, and a formula
is built from that on a stack.

* `Formula.ofPolish` — the formula of tokens in reverse Polish notation.
* `Lexer.read` — the formula and the variables of a text.
-/

namespace Propositional

/-- What one token in reverse Polish notation does to the stack of formulas, latest first. Tokens
that are neither identifiers nor operators do nothing. -/
def Formula.build (stack : List Formula) (t : Token) : Except PolishError (List Formula) :=
  match t.role with
  | .identifier => .ok (.var t.value :: stack)
  | .operator op =>
    if op.kind.arity = 1 then
      match stack with
      | f :: rest => .ok (.unary op.kind f :: rest)
      | [] => .error .noOperand
    else
      match stack with
      | r :: l :: rest => .ok (.binary op.kind l r :: rest)
      | _ => .error .noOperand
  | .unbound => .error .unbound
  | .blank | .opening | .closing | .finish | .other => .ok stack

/-- The formula of tokens in reverse Polish notation. -/
def Formula.ofPolish (tokens : List Token) : Except PolishError Formula := do
  match ← tokens.foldlM Formula.build [] with
  | [f] => .ok f
  | stack => .error (.leftover stack.length)

/-- What an expression was read as. -/
structure Reading where
  /-- The tokens in reverse Polish notation. -/
  polish : List Token
  names : NameSet
  formula : Formula

def Reading.ofPolish (polish : Polish) : Except ReadError Reading :=
  ((Formula.ofPolish polish.tokens).mapError .polish).map (⟨polish.tokens, polish.names, ·⟩)

/-- Reads tokens. -/
def Reading.ofTokens (tokens : List Token) : Except ReadError Reading := do
  Reading.ofPolish (← Polish.ofTokens tokens)

/-- Reads a text in the language of a lexer. -/
def Lexer.read (lexer : Lexer) (text : String) : Except ReadError Reading := do
  Reading.ofPolish (← Polish.ofScan (lexer.scan text))

end Propositional
