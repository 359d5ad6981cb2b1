import Std.Data.ExtTreeSet
import Propositional.Text.Slice
import Propositional.Value

/-!
# Names in order of first occurrence

Distinct names, listed in the order in which they were first given. The order fixes the columns of
a table and which digit of a row number belongs to which variable. The same names are also kept as
a set, which alone is asked whether a name is known.

* `NameSet.add` — a new name goes last, a known one changes nothing.
* `NameSet.index?`, `NameSet.count` — where a name stands in the list, and how often.
* `NameSet.contains_iff`, `NameSet.ext` — the set has the names of the list, so the list is all there
  is to two of them.
-/

namespace Propositional

structure NameSet where
  names : List String
  known : Std.ExtTreeSet String
  mem_known : ∀ name, name ∈ known ↔ name ∈ names

namespace NameSet

def empty : NameSet := ⟨[], ∅, by simp⟩

def contains (s : NameSet) (name : String) : Bool := s.known.contains name

/-- The set and the list stay in step when a name goes into both. -/
theorem mem_known_insert (s : NameSet) (name x : String) :
    x ∈ s.known.insert name ↔ x ∈ s.names ++ [name] := by
  rw [Std.ExtTreeSet.mem_insert, s.mem_known, Std.LawfulEqCmp.compare_eq_iff_eq, List.mem_append,
    List.mem_singleton, or_comm, eq_comm]

/-- A new name goes last; a known one changes nothing. -/
def add (s : NameSet) (name : String) : NameSet :=
  if s.contains name then s
  else ⟨s.names ++ [name], s.known.insert name, s.mem_known_insert name⟩

def addAll (s : NameSet) (names : List String) : NameSet := names.foldl add s

def ofList (names : List String) : NameSet := empty.addAll names

def size (s : NameSet) : Nat := s.names.length

def isEmpty (s : NameSet) : Bool := s.names.isEmpty

/-- How many of the listed names are the given one. -/
def count (s : NameSet) (name : String) : Nat := s.names.count name

/-- The place of a name, looked for from one place on and before another. A negative place counts
from the end; the place to start from is moved to the front if it lies before it. -/
def index? (s : NameSet) (name : String) (start : Int) (stop : Option Int) : Option Nat :=
  let first := (max 0 (fromFront s.size start)).toNat
  let inside (i : Nat) : Bool := match stop with
    | some stop => (i : Int) < fromFront s.size stop
    | none => true
  (List.range s.size).find? fun i => first ≤ i && inside i && s.names[i]? == some name

/-- The written form. -/
def display (s : NameSet) : String :=
  "VariableSet(" ++ (Value.list (s.names.map .text)).literal ++ ")"

theorem contains_iff {s : NameSet} {name : String} : s.contains name = true ↔ name ∈ s.names := by
  rw [contains, Std.ExtTreeSet.contains_iff_mem, s.mem_known]

theorem add_of_contains {s : NameSet} {name : String} (h : s.contains name = true) :
    s.add name = s := by simp [add, h]

theorem names_add_of_not_contains {s : NameSet} {name : String} (h : s.contains name = false) :
    (s.add name).names = s.names ++ [name] := by simp [add, h]

/-- Lists of the same names in the same order leave no room for a difference. -/
@[ext]
theorem ext {s t : NameSet} (h : s.names = t.names) : s = t := by
  obtain ⟨names, known, hknown⟩ := s
  obtain ⟨names', known', hknown'⟩ := t
  obtain rfl : names = names' := h
  obtain rfl : known = known' :=
    Std.ExtTreeSet.ext_mem fun name => (hknown name).trans (hknown' name).symm
  rfl

/-- The lists are compared, and nothing else. -/
instance : DecidableEq NameSet := fun s t => decidable_of_iff (s.names = t.names) NameSet.ext_iff.symm

instance : Repr NameSet := ⟨fun s => reprPrec s.names⟩

end NameSet

end Propositional
