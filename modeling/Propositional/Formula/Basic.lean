import Propositional.Connective

/-!
# Formulas

A formula is a variable, a connective over one formula, or a connective over two. The number of
formulas under a connective need not be its arity: such a formula can be written and traversed, and
fails only when it is evaluated. So does one that holds a value where a formula should stand.

* `Formula.display` — the formula with every binary connective in parentheses.
* `Formula.literal` — the form that shows how the formula is built.
-/

namespace Propositional

inductive Formula where
  | var (name : String)
  | unary (kind : Connective) (operand : Formula)
  | binary (kind : Connective) (left right : Formula)
  /-- A value in the place of a formula. -/
  | foreign (value : Value)
  deriving Repr, Inhabited

namespace Formula

/-- The number of nodes. -/
def size : Formula → Nat
  | var _ | foreign _ => 1
  | unary _ f => f.size + 1
  | binary _ l r => l.size + r.size + 1

theorem size_pos (f : Formula) : 0 < f.size := by cases f <;> simp [size]

/-- The formulas directly under the top, left to right. -/
def children : Formula → List Formula
  | var _ | foreign _ => []
  | unary _ f => [f]
  | binary _ l r => [l, r]

/-- The formula in symbols. -/
def display : Formula → String
  | var name => name
  | unary k f => k.symbol ++ f.display
  | binary k l r => "(" ++ l.display ++ " " ++ k.symbol ++ " " ++ r.display ++ ")"
  | foreign v => v.display

private def kindLiteral (k : Connective) : String :=
  "<OperatorKind." ++ k.name ++ ": '" ++ k.name ++ "'>"

/-- The formula with the names of its parts. -/
def literal : Formula → String
  | var name => "Var(name=" ++ quote name ++ ")"
  | unary k f => "UnaryOp(kind=" ++ kindLiteral k ++ ", operand=" ++ f.literal ++ ")"
  | binary k l r =>
    "BinaryOp(kind=" ++ kindLiteral k ++ ", left=" ++ l.literal ++ ", right=" ++ r.literal ++ ")"
  | foreign v => v.literal

/-- Equality of formulas; values that stand in them are compared as values. -/
def same : Formula → Formula → Bool
  | var m, var n => m == n
  | unary j f, unary k g => j == k && f.same g
  | binary j l r, binary k m s => j == k && l.same m && r.same s
  | foreign v, foreign w => v.same w
  | _, _ => false

end Formula

end Propositional
