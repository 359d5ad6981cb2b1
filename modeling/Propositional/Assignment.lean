import Propositional.Formula.Evaluation

/-!
# Assignments

An assignment gives every name of a list a truth value. It is kept as one number: the value of a
name is a binary digit of it, and the first name has the most significant digit.

* `Assignment.make` — the assignment with a given number, which must have no more digits than there
  are names.
* `Assignment.bits` — the digits in the order of the names.
* `Assignment.get` — the value of a name, by the table of digit places (`placeTable`), which all
  assignments to the same names share.
-/

namespace Propositional

/-- The number of an assignment is out of range. -/
structure RangeError where
  index : Int
  count : Nat
  deriving DecidableEq, Repr

def RangeError.message (e : RangeError) : String :=
  "index " ++ toString e.index ++ " out of range for " ++ toString e.count ++ " variables"

/-- Why a name has no value. -/
inductive LookupError where
  | unknown (name : String)
  /-- The place of the digit lies behind the last digit. -/
  | negativePlace
  deriving DecidableEq, Repr

def LookupError.message : LookupError → String
  | .unknown name => quote name
  | .negativePlace => "negative shift count"

/-- The place of the digit of each name, counted from the least significant one. -/
abbrev PlaceTable := List (String × Int)

/-- Sets the place of a name; a known name keeps its position in the table. -/
def PlaceTable.put (table : PlaceTable) (name : String) (place : Int) : PlaceTable :=
  if table.any (·.1 == name) then
    table.map fun entry => if entry.1 == name then (name, place) else entry
  else table ++ [(name, place)]

/-- The places for a list of names: as many names follow as digits do. Of a repeated name the last
one counts. -/
def placeTable (names : List String) : PlaceTable :=
  names.zipIdx.foldl (fun table entry =>
    table.put entry.1 ((names.length : Int) - 1 - entry.2)) []

/-- How many assignments there are to a number of names: two to its power. -/
def assignmentCount (n : Nat) : Nat := Nat.pow 2 n

structure Assignment where
  names : List String
  places : PlaceTable
  index : Nat
  deriving DecidableEq, Repr

namespace Assignment

/-- The assignment with the given number, with the digits at the given places. -/
def makeWith (names : List String) (index : Int) (places : PlaceTable) :
    Except RangeError Assignment :=
  if 0 ≤ index ∧ index < assignmentCount names.length then .ok ⟨names, places, index.toNat⟩
  else .error ⟨index, names.length⟩

/-- The assignment with the given number. -/
def make (names : List String) (index : Int) : Except RangeError Assignment :=
  makeWith names index (placeTable names)

/-- The digits in the order of the names. -/
def bits (a : Assignment) : List Bool :=
  (List.range a.names.length).map fun i => a.index.testBit (a.names.length - 1 - i)

/-- The value of a name. -/
def get (a : Assignment) (name : String) : Except LookupError Bool :=
  match a.places.lookup name with
  | none => .error (.unknown name)
  | some place => if place < 0 then .error .negativePlace else .ok (a.index.testBit place.toNat)

/-- Whether a name has a value. -/
def contains (a : Assignment) (name : String) : Except LookupError Bool :=
  match a.get name with
  | .ok _ => .ok true
  | .error (.unknown _) => .ok false
  | .error e => .error e

/-- The value of a name, or nothing for an unknown one. -/
def get? (a : Assignment) (name : String) : Except LookupError (Option Bool) :=
  match a.get name with
  | .ok b => .ok (some b)
  | .error (.unknown _) => .ok none
  | .error e => .error e

/-- Every name with its value, in order. -/
def items (a : Assignment) : Except LookupError (List (String × Bool)) :=
  a.names.mapM fun name => (a.get name).map (name, ·)

/-- The values by name, each name once. -/
def fields (a : Assignment) : Except LookupError (List (String × Value)) :=
  a.items.map fun items => items.foldl (fun fs item => Value.put fs item.1 (.bool item.2)) []

/-- Whether a value is an object with the same names and equal values. -/
def sameAs (a : Assignment) (v : Value) : Except LookupError Bool :=
  match v with
  | .object _ => a.fields.map fun fields => (Value.object fields).same v
  | _ => .ok false

/-- The values as an environment for evaluation. -/
def environment (a : Assignment) : Environment Bool := fun name =>
  match a.get name with
  | .ok b => some b
  | .error _ => none

/-- The written form. -/
def display (a : Assignment) : String :=
  let pair (name : String) (bit : Bool) : String := name ++ "=" ++ (if bit then "1" else "0")
  "Assignment(" ++ ", ".intercalate (List.zipWith pair a.names a.bits) ++ ")"

end Assignment

end Propositional
