import Propositional.Value

/-!
# Connectives

The six connectives of propositional logic: what they are called and written as, how tightly they
bind, how many operands they take, and what they mean.

* `Connective.apply` — the truth function; it fails exactly when the number of operands is not the
  arity (`apply_eq_error_iff`).
* `Connective.applyValues` — the same on arbitrary values: conjunction, disjunction and implication
  give back the operand that decides, equality and its negation compare. On truth values it is the
  truth function (`applyValues_bool`).
-/

namespace Propositional

/-- To which side operators of one precedence group. -/
inductive Associativity where
  | left
  | right
  /-- Something that is no side. -/
  | invalid (text : String)
  deriving DecidableEq, Repr

inductive Connective where
  | not
  | and
  | or
  | xor
  | implies
  | iff
  deriving DecidableEq, Repr

namespace Connective

def all : List Connective := [not, and, or, xor, implies, iff]

def name : Connective → String
  | not => "NOT"
  | and => "AND"
  | or => "OR"
  | xor => "XOR"
  | implies => "IMPLIES"
  | iff => "IFF"

/-- The symbol that a printed formula uses. -/
def symbol : Connective → String
  | not => "!"
  | and => "&&"
  | or => "||"
  | xor => "^"
  | implies => "=>"
  | iff => "<=>"

/-- A higher number binds tighter. -/
def precedence : Connective → Int
  | not => 5
  | and => 4
  | or => 3
  | xor => 2
  | implies => 1
  | iff => 0

def arity : Connective → Nat
  | not => 1
  | _ => 2

def associativity : Connective → Associativity
  | not => .right
  | _ => .left

def ofName? (name : String) : Option Connective := all.find? (·.name == name)

/-- An application to the wrong number of operands. -/
structure ArityError where
  connective : Connective
  given : Nat
  deriving DecidableEq, Repr

def ArityError.message (e : ArityError) : String :=
  e.connective.name ++ " takes " ++ toString e.connective.arity ++ " operand(s), got " ++
    toString e.given

/-- The truth function of a connective. -/
def apply : Connective → List Bool → Except ArityError Bool
  | not, [a] => .ok (!a)
  | and, [a, b] => .ok (a && b)
  | or, [a, b] => .ok (a || b)
  | xor, [a, b] => .ok (a != b)
  | implies, [a, b] => .ok (!a || b)
  | iff, [a, b] => .ok (a == b)
  | k, args => .error ⟨k, args.length⟩

/-- The connective on arbitrary values. -/
def applyValues : Connective → List Value → Except ArityError Value
  | not, [a] => .ok (.bool !a.truth)
  | and, [a, b] => .ok (if a.truth then b else a)
  | or, [a, b] => .ok (if a.truth then a else b)
  | xor, [a, b] => .ok (.bool !a.same b)
  | implies, [a, b] => .ok (if a.truth then b else .bool true)
  | iff, [a, b] => .ok (.bool (a.same b))
  | k, args => .error ⟨k, args.length⟩

/-- The truth function fails exactly on the wrong number of operands. -/
theorem apply_eq_error_iff (k : Connective) (args : List Bool) (e : ArityError) :
    k.apply args = .error e ↔ args.length ≠ k.arity ∧ e = ⟨k, args.length⟩ := by
  cases k <;> rcases args with _ | ⟨a, _ | ⟨b, _ | ⟨c, rest⟩⟩⟩ <;>
    simp [apply, arity, eq_comm]

/-- On truth values the general connective is the truth function. -/
theorem applyValues_bool (k : Connective) (args : List Bool) :
    k.applyValues (args.map .bool) = (k.apply args).map .bool := by
  cases k <;> rcases args with _ | ⟨a, _ | ⟨b, _ | ⟨c, rest⟩⟩⟩ <;>
    simp [apply, applyValues, Except.map, Value.truth] <;>
    cases a <;> simp_all [Value.same, Value.number?] <;> cases b <;> simp

end Connective

end Propositional
