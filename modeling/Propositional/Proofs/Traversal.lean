import Propositional.Formula.Evaluation
import Propositional.Proofs.Names

/-!
# Traversals and the recursive orders

* `topDown_eq_preorder`, `bottomUp_eq_postorder` — a traversal with a list of what is still to be
  visited lists the nodes in the order that recursion gives.
* `Formula.occurrences` — the variables of a formula as they stand, left to right.
* `Formula.names_eq` — collecting the variables keeps each where it first occurs.
-/

namespace Propositional

namespace Formula

/-! ## Orders -/

theorem preorder_eq (f : Formula) : f.preorder = f :: f.children.flatMap preorder := by
  cases f <;> simp [preorder, children]

theorem postorder_eq (f : Formula) : f.postorder = f.children.flatMap postorder ++ [f] := by
  cases f <;> simp [postorder, children]

theorem topDownAll_eq (fs : List Formula) : topDownAll fs = fs.flatMap preorder := by
  match fs with
  | [] => rw [topDownAll, List.flatMap_nil]
  | f :: rest =>
    rw [topDownAll, topDownAll_eq (f.children ++ rest), List.flatMap_append, List.flatMap_cons,
      preorder_eq f, List.cons_append]
termination_by totalSize fs
decreasing_by rw [totalSize_append, totalSize, size_eq_children]; omega

/-- **Every node comes before the nodes under it, left to right.** -/
theorem topDown_eq_preorder (f : Formula) : f.topDown = f.preorder := by
  simp [topDown, topDownAll_eq]

/-- What a visit still adds to the list of nodes. -/
def Visit.nodes : Visit → List Formula
  | .enter f => f.postorder
  | .leave f => [f]

theorem flatMap_nodes_enter (fs : List Formula) :
    (fs.map Visit.enter).flatMap Visit.nodes = fs.flatMap postorder := by
  induction fs with
  | nil => rfl
  | cons f fs ih => simp [Visit.nodes, ih]

theorem bottomUpAll_eq (vs : List Visit) : bottomUpAll vs = vs.flatMap Visit.nodes := by
  match vs with
  | [] => rw [bottomUpAll, List.flatMap_nil]
  | .leave f :: rest =>
    rw [bottomUpAll, bottomUpAll_eq rest, List.flatMap_cons]
    rfl
  | .enter f :: rest =>
    rw [bottomUpAll, bottomUpAll_eq, List.flatMap_append, flatMap_nodes_enter, List.flatMap_cons,
      List.flatMap_cons, Visit.nodes, Visit.nodes, postorder_eq f, List.append_assoc]
termination_by totalWeight vs
decreasing_by
  · simp [totalWeight, Visit.weight]
  · rw [totalWeight_enter_append]
    simp only [totalWeight, Visit.weight, size_eq_children f]
    omega

/-- **Every node comes after the nodes under it, left to right.** -/
theorem bottomUp_eq_postorder (f : Formula) : f.bottomUp = f.postorder := by
  simp [bottomUp, bottomUpAll_eq, Visit.nodes]

end Formula

/-! ## Names -/

namespace Formula

/-- The variables of a formula as they stand, left to right. -/
def occurrences : Formula → List String
  | var name => [name]
  | unary _ f => f.occurrences
  | binary _ l r => l.occurrences ++ r.occurrences
  | foreign _ => []

/-- The name that a node adds to the variables. -/
def nameOf? : Formula → Option String
  | var name => some name
  | _ => none

theorem filterMap_nameOf?_preorder (f : Formula) :
    f.preorder.filterMap nameOf? = f.occurrences := by
  induction f with
  | var name => rfl
  | unary k f ih =>
    rw [preorder, List.filterMap_cons_none rfl, ih]
    rfl
  | binary k l r ihl ihr =>
    rw [preorder, List.filterMap_cons_none rfl, List.filterMap_append, ihl, ihr]
    rfl
  | foreign v => rfl

/-- **The variables of a formula are its distinct names in order of first occurrence.** -/
theorem names_eq (f : Formula) : f.names = .ofList f.occurrences := by
  rw [← filterMap_nameOf?_preorder, NameSet.ofList, NameSet.addAll, List.foldl_filterMap, names,
    topDown_eq_preorder]
  congr 1
  funext names node
  cases node <;> rfl

end Formula

end Propositional
