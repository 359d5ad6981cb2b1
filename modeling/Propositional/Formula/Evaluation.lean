import Propositional.Formula.Traversal

/-!
# Evaluation

An environment gives values to variables, and a variable is true when its value counts as true.
There is no short cut: every operand is evaluated, left to right, before its connective is applied.

* `Truthy`, `Environment` — values of any type of which each counts as true or as false, and the
  variables that have them.
* `Formula.truth` — evaluation by recursion on the formula.
* `evaluatePolish` — evaluation of reverse Polish notation on a stack of truth values.
* `Formula.evaluate` — the same for a formula, by way of its reverse Polish notation.
-/

namespace Propositional

universe u

/-- Values that count as true or as false. -/
class Truthy (V : Type u) where
  truth : V → Bool

instance : Truthy Bool := ⟨id⟩

instance : Truthy Value := ⟨Value.truth⟩

/-- The value of every variable that has one. -/
abbrev Environment (V : Type u) := String → Option V

/-- Why a formula has no truth value. -/
inductive EvalError where
  | missingVariable (name : String)
  | arity (error : Connective.ArityError)
  /-- A value stands where a formula should. -/
  | foreign (value : Value)
  /-- An operand was wanted and none was left. -/
  | noOperand
  deriving Repr

def EvalError.message : EvalError → String
  | .missingVariable name => "No value assigned to variable " ++ quote name
  | .arity error => error.message
  | .foreign value => value.literal ++ " is not an expression node"
  | .noOperand => "pop from empty list"

section

variable {V : Type u} [Truthy V]

/-- The truth value of a variable. -/
def Environment.read (env : Environment V) (name : String) : Except EvalError Bool :=
  match env name with
  | some value => .ok (Truthy.truth value)
  | none => .error (.missingVariable name)

/-- A connective applied to truth values. -/
def applyKind (kind : Connective) (operands : List Bool) : Except EvalError Bool :=
  (kind.apply operands).mapError .arity

/-- The truth value of a formula. -/
def Formula.truth (env : Environment V) : Formula → Except EvalError Bool
  | var name => env.read name
  | unary k f => do
    let a ← f.truth env
    applyKind k [a]
  | binary k l r => do
    let a ← l.truth env
    let b ← r.truth env
    applyKind k [a, b]
  | foreign v => .error (.foreign v)

/-- One node of reverse Polish notation: what it does to the stack of values, latest first. -/
def evaluateNode (env : Environment V) (stack : List Bool) (node : Formula) :
    Except EvalError (List Bool) :=
  match node with
  | .var name => (env.read name).map (· :: stack)
  | .unary k _ => match stack with
    | a :: rest => (applyKind k [a]).map (· :: rest)
    | [] => .error .noOperand
  | .binary k _ _ => match stack with
    | b :: a :: rest => (applyKind k [a, b]).map (· :: rest)
    | _ => .error .noOperand
  | .foreign v => .error (.foreign v)

/-- The truth value of nodes in reverse Polish notation. -/
def evaluatePolish (env : Environment V) (nodes : List Formula) : Except EvalError Bool := do
  match ← nodes.foldlM (evaluateNode env) [] with
  | value :: _ => .ok value
  | [] => .error .noOperand

/-- The truth value of a formula, found on a stack. -/
def Formula.evaluate (env : Environment V) (f : Formula) : Except EvalError Bool :=
  evaluatePolish env f.bottomUp

end

end Propositional
