import Mathlib.Data.List.Nodup
import Mathlib.Data.List.Perm.Basic
import Mathlib.Data.Option.Basic
import Mathlib.Logic.Function.Iterate
import Propositional.Proofs.Traversal

/-!
# The nodes of a formula in their places

Equal formulas may stand in several places of a formula. A place is told by the way from the top: at
every step, the number of the operand to go to.

* `Formula.subformula?` — the formula in a place, if there is one.
* `Formula.placesDown`, `Formula.placesUp` — all places, every one before, and every one after, those
  under it.
* `Formula.Visits` — a list of nodes goes through given places, and these are all places, each once.
* `topDownRound`, `bottomUpRound` — one round of a traversal; every round has one step less to go.
* `Formula.traversals_visit` — both traversals come to an end, after a number of rounds that is known;
  they give the recursive orders, go to every place once, and come to the leaves in one order.
-/

namespace Propositional

namespace Formula

/-! ## Places -/

/-- The formula that is reached by going to the operands with the given numbers. -/
def subformula? (f : Formula) : List Nat → Option Formula
  | [] => some f
  | i :: path => f.children[i]?.bind (·.subformula? path)

/-- All places in a formula, each before those under it, left to right. -/
def placesDown : Formula → List (List Nat)
  | var _ | foreign _ => [[]]
  | unary _ f => [] :: f.placesDown.map (0 :: ·)
  | binary _ l r => [] :: (l.placesDown.map (0 :: ·) ++ r.placesDown.map (1 :: ·))

/-- All places in a formula, each after those under it, left to right. -/
def placesUp : Formula → List (List Nat)
  | var _ | foreign _ => [[]]
  | unary _ f => f.placesUp.map (0 :: ·) ++ [[]]
  | binary _ l r => l.placesUp.map (0 :: ·) ++ r.placesUp.map (1 :: ·) ++ [[]]

theorem map_placesDown (f : Formula) : f.placesDown.map f.subformula? = f.preorder.map some := by
  induction f with
  | var name => rfl
  | unary k f ih =>
    rw [placesDown, preorder, List.map_cons, List.map_cons, List.map_map, ← ih]
    rfl
  | binary k l r ihl ihr =>
    rw [placesDown, preorder, List.map_cons, List.map_cons, List.map_append, List.map_append,
      List.map_map, List.map_map, ← ihl, ← ihr]
    rfl
  | foreign v => rfl

theorem map_placesUp (f : Formula) : f.placesUp.map f.subformula? = f.postorder.map some := by
  induction f with
  | var name => rfl
  | unary k f ih =>
    rw [placesUp, postorder, List.map_append, List.map_append, List.map_map, ← ih]
    rfl
  | binary k l r ihl ihr =>
    rw [placesUp, postorder, List.map_append, List.map_append, List.map_append, List.map_append,
      List.map_map, List.map_map, ← ihl, ← ihr]
    rfl
  | foreign v => rfl

theorem placesUp_perm (f : Formula) : f.placesUp.Perm f.placesDown := by
  induction f with
  | var name => exact .refl _
  | unary k f ih => exact (ih.map _).append_right [[]] |>.trans (List.perm_append_singleton _ _)
  | binary k l r ihl ihr =>
    have hunder := (ihl.map (0 :: ·)).append (ihr.map (1 :: ·))
    exact (hunder.append_right [[]]).trans (List.perm_append_singleton _ _)
  | foreign v => exact .refl _

theorem mem_placesDown (f : Formula) : ∀ place : List Nat,
    place ∈ f.placesDown ↔ (f.subformula? place).isSome = true := by
  induction f with
  | var name => intro place; cases place <;> simp [placesDown, subformula?, children]
  | unary k f ih =>
    rintro (_ | ⟨_ | i, place⟩)
    · simp [placesDown, subformula?]
    · simp [placesDown, subformula?, children, ih]
    · simp [placesDown, subformula?, children]
  | binary k l r ihl ihr =>
    rintro (_ | ⟨_ | _ | i, place⟩)
    · simp [placesDown, subformula?]
    · simp [placesDown, subformula?, children, ihl]
    · simp [placesDown, subformula?, children, ihr]
    · simp [placesDown, subformula?, children]
  | foreign v => intro place; cases place <;> simp [placesDown, subformula?, children]

/-- From the top down, left to right, places come in the lexicographic order. -/
theorem pairwise_placesDown (f : Formula) : f.placesDown.Pairwise (· < ·) := by
  have hunder : ∀ (i : Nat) {places : List (List Nat)}, places.Pairwise (· < ·) →
      (places.map (i :: ·)).Pairwise (· < ·) := by
    intro i places h
    rw [List.pairwise_map]
    exact h.imp fun hlt => List.cons_lt_cons_iff.mpr (.inr ⟨rfl, hlt⟩)
  induction f with
  | var name => exact List.pairwise_singleton _ _
  | unary k f ih =>
    refine List.pairwise_cons.mpr ⟨fun place hplace => ?_, hunder 0 ih⟩
    obtain ⟨p, -, rfl⟩ := List.mem_map.mp hplace
    exact List.nil_lt_cons 0 p
  | binary k l r ihl ihr =>
    refine List.pairwise_cons.mpr ⟨fun place hplace => ?_, List.pairwise_append.mpr
      ⟨hunder 0 ihl, hunder 1 ihr, fun place hplace place' hplace' => ?_⟩⟩
    · rcases List.mem_append.mp hplace with hplace | hplace
      · obtain ⟨p, -, rfl⟩ := List.mem_map.mp hplace
        exact List.nil_lt_cons 0 p
      · obtain ⟨p, -, rfl⟩ := List.mem_map.mp hplace
        exact List.nil_lt_cons 1 p
    · obtain ⟨p, -, rfl⟩ := List.mem_map.mp hplace
      obtain ⟨p', -, rfl⟩ := List.mem_map.mp hplace'
      exact List.cons_lt_cons_iff.mpr (.inl Nat.zero_lt_one)
  | foreign v => exact List.pairwise_singleton _ _

/-! ## Leaves -/

/-- Nothing stands under the formula. -/
def isLeaf (f : Formula) : Bool := f.children.isEmpty

/-- There is a leaf in the place. -/
def leafAt (f : Formula) (place : List Nat) : Bool := (f.subformula? place).any isLeaf

/-- The places of the leaves, left to right. -/
def leafPlaces : Formula → List (List Nat)
  | var _ | foreign _ => [[]]
  | unary _ f => f.leafPlaces.map (0 :: ·)
  | binary _ l r => l.leafPlaces.map (0 :: ·) ++ r.leafPlaces.map (1 :: ·)

theorem filter_leafAt_under {f g : Formula} {i : Nat} (h : f.children[i]? = some g)
    (places : List (List Nat)) :
    (places.map (i :: ·)).filter f.leafAt = (places.filter g.leafAt).map (i :: ·) := by
  rw [List.filter_map]
  congr 2
  funext place
  simp [leafAt, subformula?, h]

theorem filter_placesDown (f : Formula) : f.placesDown.filter f.leafAt = f.leafPlaces := by
  induction f with
  | var name => rfl
  | unary k f ih =>
    have hunder := filter_leafAt_under (f := unary k f) (i := 0) rfl f.placesDown
    rw [ih] at hunder
    exact hunder
  | binary k l r ihl ihr =>
    have hleft := filter_leafAt_under (f := binary k l r) (i := 0) rfl l.placesDown
    have hright := filter_leafAt_under (f := binary k l r) (i := 1) rfl r.placesDown
    rw [ihl] at hleft
    rw [ihr] at hright
    rw [placesDown, List.filter_cons_of_neg (by simp [leafAt, subformula?, isLeaf, children]),
      List.filter_append, hleft, hright, leafPlaces]
  | foreign v => rfl

theorem filter_placesUp (f : Formula) : f.placesUp.filter f.leafAt = f.leafPlaces := by
  induction f with
  | var name => rfl
  | unary k f ih =>
    have hunder := filter_leafAt_under (f := unary k f) (i := 0) rfl f.placesUp
    have htop : [[]].filter (unary k f).leafAt = [] := rfl
    rw [placesUp, List.filter_append, hunder, ih, htop, List.append_nil, leafPlaces]
  | binary k l r ihl ihr =>
    have hleft := filter_leafAt_under (f := binary k l r) (i := 0) rfl l.placesUp
    have hright := filter_leafAt_under (f := binary k l r) (i := 1) rfl r.placesUp
    have htop : [[]].filter (binary k l r).leafAt = [] := rfl
    rw [placesUp, List.filter_append, List.filter_append, hleft, hright, ihl, ihr, htop,
      List.append_nil, leafPlaces]
  | foreign v => rfl

/-! ## Visits -/

/-- The nodes stand in the given places one after the other, and these are all places of the
formula, each of them once. -/
structure Visits (f : Formula) (places : List (List Nat)) (nodes : List Formula) : Prop where
  nodes_eq : nodes.map some = places.map f.subformula?
  nodup : places.Nodup
  mem_iff : ∀ place, place ∈ places ↔ (f.subformula? place).isSome = true

theorem visits_preorder (f : Formula) : f.Visits f.placesDown f.preorder where
  nodes_eq := f.map_placesDown.symm
  nodup := by
    refine f.pairwise_placesDown.imp fun hlt => ?_
    rintro rfl
    exact List.lt_irrefl _ hlt
  mem_iff := f.mem_placesDown

theorem visits_postorder (f : Formula) : f.Visits f.placesUp f.postorder where
  nodes_eq := f.map_placesUp.symm
  nodup := f.placesUp_perm.nodup_iff.mpr f.visits_preorder.nodup
  mem_iff place := f.placesUp_perm.mem_iff.trans (f.mem_placesDown place)

/-- The leaves among the nodes are the formulas in the places of leaves. -/
theorem Visits.filter_isLeaf {f : Formula} {places : List (List Nat)} {nodes : List Formula}
    (h : f.Visits places nodes) :
    (nodes.filter isLeaf).map some = (places.filter f.leafAt).map f.subformula? := by
  have hnodes : (nodes.filter isLeaf).map some = (nodes.map some).filter (·.any isLeaf) := by
    rw [List.filter_map]
    rfl
  rw [hnodes, h.nodes_eq, List.filter_map]
  rfl

/-! ## Rounds -/

/-- One round of `topDown`: the first formula on the list is written down, and its operands take its
place. -/
def topDownRound : List Formula × List Formula → List Formula × List Formula
  | ([], written) => ([], written)
  | (f :: rest, written) => (f.children ++ rest, written ++ [f])

/-- One round of `bottomUp`: the first node on the list is written down, or it is opened. -/
def bottomUpRound : List Visit × List Formula → List Visit × List Formula
  | ([], written) => ([], written)
  | (.leave f :: rest, written) => (rest, written ++ [f])
  | (.enter f :: rest, written) => (f.children.map .enter ++ .leave f :: rest, written)

/-- A loop over a list of what is still to be done and a list of what has been written: every round
makes one of the steps that are to go, there are none when nothing is to be done, and what will have
been written in the end does not change. -/
structure CountsDown {α β : Type} (round : List α × List β → List α × List β)
    (steps : List α → Nat) (result : List α → List β) : Prop where
  steps_round : ∀ state, steps (round state).1 = steps state.1 - 1
  steps_eq_zero : ∀ todo, steps todo = 0 ↔ todo = []
  result_round : ∀ state, (round state).2 ++ result (round state).1 = state.2 ++ result state.1
  result_nil : result [] = []

/-- **A loop that counts down ends** when all of its steps have been made, with its result. -/
theorem CountsDown.iterate_eq_iff {α β : Type} {round : List α × List β → List α × List β}
    {steps : List α → Nat} {result : List α → List β} (h : CountsDown round steps result) (k : Nat) :
    ∀ state, round^[k] state = ([], state.2 ++ result state.1) ↔ steps state.1 ≤ k := by
  induction k with
  | zero =>
    rintro ⟨todo, written⟩
    rw [Function.iterate_zero_apply, Nat.le_zero, h.steps_eq_zero]
    constructor
    · intro hend
      exact congrArg Prod.fst hend
    · rintro rfl
      rw [h.result_nil, List.append_nil]
  | succ k ih =>
    intro state
    have hround := ih (round state)
    rw [h.result_round, h.steps_round] at hround
    rw [Function.iterate_succ_apply, hround]
    omega

theorem totalSize_eq_zero_iff (fs : List Formula) : totalSize fs = 0 ↔ fs = [] := by
  cases fs with
  | nil => simp [totalSize]
  | cons f fs =>
    have hpos := f.size_pos
    simp only [totalSize, reduceCtorEq, iff_false]
    omega

theorem totalWeight_eq_zero_iff (vs : List Visit) : totalWeight vs = 0 ↔ vs = [] := by
  cases vs with
  | nil => simp [totalWeight]
  | cons v vs =>
    have hpos : 0 < v.weight := by
      cases v with
      | enter f => exact Nat.mul_pos Nat.zero_lt_two f.size_pos
      | leave f => exact Nat.one_pos
    simp only [totalWeight, reduceCtorEq, iff_false]
    omega

theorem countsDown_topDown : CountsDown topDownRound totalSize topDownAll where
  steps_round := by
    rintro ⟨_ | ⟨f, rest⟩, written⟩
    · rfl
    · simp only [topDownRound, totalSize_append, totalSize, size_eq_children f]
      omega
  steps_eq_zero := totalSize_eq_zero_iff
  result_round := by
    rintro ⟨_ | ⟨f, rest⟩, written⟩
    · rfl
    · rw [topDownRound, topDownAll, List.append_assoc, List.singleton_append]
  result_nil := by rw [topDownAll]

theorem countsDown_bottomUp : CountsDown bottomUpRound totalWeight bottomUpAll where
  steps_round := by
    rintro ⟨_ | ⟨f | f, rest⟩, written⟩
    · rfl
    · simp only [bottomUpRound, totalWeight_enter_append, totalWeight, Visit.weight,
        size_eq_children f]
      omega
    · simp only [bottomUpRound, totalWeight, Visit.weight]
      omega
  steps_eq_zero := totalWeight_eq_zero_iff
  result_round := by
    rintro ⟨_ | ⟨f | f, rest⟩, written⟩
    · rfl
    · rw [bottomUpRound, bottomUpAll]
    · rw [bottomUpRound, bottomUpAll, List.append_assoc, List.singleton_append]
  result_nil := by rw [bottomUpAll]

/-! ## Both traversals -/

/-- **The traversals visit every node once.** Each comes to its end, after one round for every node
and after two, and gives the order that recursion gives, left before right. Each goes to every place
of the formula exactly once, so the two lists hold the same nodes. The first comes to the places in
their lexicographic order, and both come to the leaves in this order, from left to right. -/
theorem traversals_visit (f : Formula) :
    (∀ k, topDownRound^[k] ([f], []) = ([], f.topDown) ↔ f.size ≤ k) ∧
    (∀ k, bottomUpRound^[k] ([.enter f], []) = ([], f.bottomUp) ↔ 2 * f.size ≤ k) ∧
    f.topDown = f.preorder ∧ f.bottomUp = f.postorder ∧
    f.topDown.Perm f.bottomUp ∧ f.topDown.filter isLeaf = f.bottomUp.filter isLeaf ∧
    ∃ before after : List (List Nat), f.Visits before f.topDown ∧ f.Visits after f.bottomUp ∧
      before.Pairwise (· < ·) ∧ before.filter f.leafAt = after.filter f.leafAt := by
  have hdown : f.Visits f.placesDown f.topDown := f.topDown_eq_preorder ▸ f.visits_preorder
  have hup : f.Visits f.placesUp f.bottomUp := f.bottomUp_eq_postorder ▸ f.visits_postorder
  have hleaves : f.placesDown.filter f.leafAt = f.placesUp.filter f.leafAt :=
    f.filter_placesDown.trans f.filter_placesUp.symm
  have hsome : Function.Injective (List.map (some : Formula → Option Formula)) :=
    List.map_injective_iff.mpr (Option.some_injective _)
  refine ⟨fun k => ?_, fun k => ?_, f.topDown_eq_preorder, f.bottomUp_eq_postorder, ?_, ?_,
    f.placesDown, f.placesUp, hdown, hup, f.pairwise_placesDown, hleaves⟩
  · have hloop := countsDown_topDown.iterate_eq_iff k ([f], [])
    simpa [totalSize, topDown] using hloop
  · have hloop := countsDown_bottomUp.iterate_eq_iff k ([.enter f], [])
    simpa [totalWeight, Visit.weight, bottomUp] using hloop
  · have hperm := (f.placesUp_perm.map f.subformula?).symm
    rw [← hdown.nodes_eq, ← hup.nodes_eq] at hperm
    exact (List.map_perm_map_iff (Option.some_injective _)).mp hperm
  · apply hsome
    rw [hdown.filter_isLeaf, hup.filter_isLeaf, hleaves]

end Formula

end Propositional
