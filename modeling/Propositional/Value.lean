import Propositional.Text.Quoted

/-!
# Data values

Plain data: nothing, truth values, whole numbers, texts, lists, and objects, whose fields keep
their order. An environment may bind a variable to any of them.

* `Value.truth` — which values count as true.
* `Value.same` — when two values are equal: a truth value equals the number 0 or 1, an object
  equals every object with equal fields in any order, and nothing else crosses kinds.
* `Value.literal`, `Value.display` — the written form, and the form in which a text stands bare.
-/

namespace Propositional

inductive Value where
  | null
  | bool (b : Bool)
  | int (n : Int)
  | text (s : String)
  | list (items : List Value)
  | object (fields : List (String × Value))
  deriving Repr, Inhabited

namespace Value

/-- Nothing, zero, and whatever is empty count as false. -/
def truth : Value → Bool
  | null => false
  | bool b => b
  | int n => n != 0
  | text s => s != ""
  | list items => !items.isEmpty
  | object fields => !fields.isEmpty

/-- The number that a number or a truth value stands for. -/
def number? : Value → Option Int
  | bool b => some (if b then 1 else 0)
  | int n => some n
  | _ => none

mutual

/-- Equality of values. -/
def same : Value → Value → Bool
  | null, null => true
  | text s, text t => s == t
  | list xs, list ys => sameItems xs ys
  | object fs, object gs => fs.length == gs.length && sameFields fs gs
  | v, w => match v.number?, w.number? with
    | some m, some n => m == n
    | _, _ => false

/-- Equality item by item. -/
def sameItems : List Value → List Value → Bool
  | [], [] => true
  | v :: vs, w :: ws => same v w && sameItems vs ws
  | _, _ => false

/-- Every field has an equal field of the same name among the others. -/
def sameFields : List (String × Value) → List (String × Value) → Bool
  | [], _ => true
  | (name, v) :: rest, gs =>
    (match gs.lookup name with
      | some w => same v w
      | none => false) && sameFields rest gs

end

mutual

/-- The written form of a value. -/
def literal : Value → String
  | null => "None"
  | bool true => "True"
  | bool false => "False"
  | int n => toString n
  | text s => quote s
  | list items => "[" ++ ", ".intercalate (itemLiterals items) ++ "]"
  | object fields => "\x7b" ++ ", ".intercalate (fieldLiterals fields) ++ "\x7d"

/-- The written forms of the items of a list. -/
def itemLiterals : List Value → List String
  | [] => []
  | v :: vs => literal v :: itemLiterals vs

/-- The written forms of the fields of an object. -/
def fieldLiterals : List (String × Value) → List String
  | [] => []
  | (name, v) :: rest => (quote name ++ ": " ++ literal v) :: fieldLiterals rest

end

/-- A text as it is, any other value in its written form. -/
def display : Value → String
  | text s => s
  | v => v.literal

/-- Writes a field: a new name goes last, a known one keeps its place. -/
def put (fields : List (String × Value)) (name : String) (v : Value) : List (String × Value) :=
  if fields.any (·.1 == name) then
    fields.map fun field => if field.1 == name then (name, v) else field
  else fields ++ [(name, v)]

end Value

end Propositional
