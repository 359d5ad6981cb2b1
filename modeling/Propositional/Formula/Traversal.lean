import Propositional.Formula.Basic
import Propositional.NameSet

/-!
# Traversals

Both orders in which a formula is read are given twice: by recursion on the formula (`preorder`,
`postorder`), and with a list of what is still to be visited, which needs no deep recursion
(`topDown`, `bottomUp`).

* `Formula.topDown` — every formula before its operands.
* `Formula.bottomUp` — operands before their connective, left before right: reverse Polish notation.
* `Formula.names` — the variables in order of first occurrence.
-/

namespace Propositional

namespace Formula

/-- Every node before the nodes under it, left to right. -/
def preorder : Formula → List Formula
  | var name => [var name]
  | unary k f => unary k f :: f.preorder
  | binary k l r => binary k l r :: (l.preorder ++ r.preorder)
  | foreign v => [foreign v]

/-- Every node after the nodes under it, left to right. -/
def postorder : Formula → List Formula
  | var name => [var name]
  | unary k f => f.postorder ++ [unary k f]
  | binary k l r => l.postorder ++ r.postorder ++ [binary k l r]
  | foreign v => [foreign v]

/-- The number of nodes in a list of formulas. -/
def totalSize : List Formula → Nat
  | [] => 0
  | f :: fs => f.size + totalSize fs

theorem totalSize_append (fs gs : List Formula) :
    totalSize (fs ++ gs) = totalSize fs + totalSize gs := by
  induction fs with
  | nil => simp [totalSize]
  | cons f fs ih => simp only [List.cons_append, totalSize, ih]; omega

theorem size_eq_children (f : Formula) : f.size = totalSize f.children + 1 := by
  cases f <;> simp [size, children, totalSize]

/-- Visits the formulas on the list: the first is next, and its operands come before the rest. -/
def topDownAll : List Formula → List Formula
  | [] => []
  | f :: rest => f :: topDownAll (f.children ++ rest)
termination_by fs => totalSize fs
decreasing_by rw [totalSize_append, totalSize, size_eq_children]; omega

/-- Every node before the nodes under it. -/
def topDown (f : Formula) : List Formula := topDownAll [f]

/-- A node on the list of `bottomUp`: still to be opened, or only to be written down. -/
inductive Visit where
  | enter (f : Formula)
  | leave (f : Formula)

def Visit.weight : Visit → Nat
  | enter f => 2 * f.size
  | leave _ => 1

/-- The steps that a list still takes. -/
def totalWeight : List Visit → Nat
  | [] => 0
  | v :: vs => v.weight + totalWeight vs

theorem totalWeight_enter_append (fs : List Formula) (vs : List Visit) :
    totalWeight (fs.map .enter ++ vs) = 2 * totalSize fs + totalWeight vs := by
  induction fs with
  | nil => simp [totalSize]
  | cons f fs ih =>
    simp only [List.map_cons, List.cons_append, totalWeight, Visit.weight, totalSize, ih]; omega

/-- Visits what is on the list: an entered node comes back to be written down after its operands. -/
def bottomUpAll : List Visit → List Formula
  | [] => []
  | .leave f :: rest => f :: bottomUpAll rest
  | .enter f :: rest => bottomUpAll (f.children.map .enter ++ .leave f :: rest)
termination_by vs => totalWeight vs
decreasing_by
  · simp [totalWeight, Visit.weight]
  · rw [totalWeight_enter_append]
    simp only [totalWeight, Visit.weight, size_eq_children f]
    omega

/-- Reverse Polish notation: every node after the nodes under it. -/
def bottomUp (f : Formula) : List Formula := bottomUpAll [.enter f]

/-- The variables of a formula in order of first occurrence. -/
def names (f : Formula) : NameSet :=
  f.topDown.foldl (fun names node => match node with
    | var name => names.add name
    | _ => names) .empty

end Formula

end Propositional
