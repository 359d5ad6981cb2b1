import Mathlib.Data.List.Nodup
import Propositional.NameSet

/-!
# Names that are given one after the other

A set of names has a history: the names that it was made from, and those that were added to it.

* `NameSet.names_add`, `NameSet.names_addAll` — one more name, and many: the list has the names of
  the history, each where it first occurs.
* `NameSet.prefix_add`, `NameSet.nodup_addAll` — what every new name leaves as it is.
* `NameSet.index?_eq_some_iff` — a name is found at its first place in the list.
* `NameSet.Records` — what is known of a set from its history: what it lists, counts and finds.
* `NameSet.records_history` — after every addition a set records its history, in which the names
  listed before have kept their places, and nothing but the first occurrences makes a difference.
-/

namespace Propositional

namespace NameSet

variable {s : NameSet} {before names : List String} {name x : String}

/-! ## The list -/

/-- One more name is looked for among those that were given before. -/
theorem names_add (h : s.names = before.eraseDups) (name : String) :
    (s.add name).names = (before ++ [name]).eraseDups := by
  have hknown : s.contains name = true ↔ name ∈ before := by
    rw [contains_iff, h, List.mem_eraseDups]
  rw [List.eraseDups_append]
  cases hc : s.contains name with
  | true => simp [add_of_contains hc, h, List.removeAll, hknown.mp hc]
  | false =>
    have hnew : name ∉ before := fun hmem => by simp [hknown.mpr hmem] at hc
    simp [names_add_of_not_contains hc, h, List.removeAll, hnew, List.eraseDups_cons]

theorem names_addAll : ∀ (names : List String) {s : NameSet} {before : List String},
    s.names = before.eraseDups → (s.addAll names).names = (before ++ names).eraseDups
  | [], s, before, h => by rwa [List.append_nil]
  | name :: names, s, before, h => by
    have ih : ((s.add name).addAll names).names = _ := names_addAll names (names_add h name)
    rwa [List.append_assoc] at ih

/-- **Names that are given one after the other are listed where they first occur.** -/
theorem names_ofList (names : List String) : (ofList names).names = names.eraseDups := by
  have hempty : empty.names = ([] : List String).eraseDups := rfl
  exact names_addAll names hempty

/-- The names that a set was made from and those that were added to it are one history. -/
theorem names_addAll_ofList (initial added : List String) :
    ((ofList initial).addAll added).names = (initial ++ added).eraseDups :=
  names_addAll added (names_ofList initial)

theorem mem_add (h : x ∈ (s.add name).names) : x ∈ s.names ∨ x = name := by
  cases hcontains : s.contains name with
  | true =>
    rw [add_of_contains hcontains] at h
    exact .inl h
  | false =>
    rw [names_add_of_not_contains hcontains] at h
    exact (List.mem_append.mp h).imp id List.mem_singleton.mp

theorem prefix_add (s : NameSet) (name : String) : s.names <+: (s.add name).names := by
  cases h : s.contains name with
  | true => exact ⟨[], by rw [List.append_nil, add_of_contains h]⟩
  | false => exact ⟨[name], by rw [names_add_of_not_contains h]⟩

theorem nodup_add (h : s.names.Nodup) (name : String) : (s.add name).names.Nodup := by
  cases hc : s.contains name with
  | true => rwa [add_of_contains hc]
  | false =>
    rw [names_add_of_not_contains hc, List.nodup_append]
    refine ⟨h, by simp, fun x hx y hy heq => ?_⟩
    rw [List.mem_singleton] at hy
    have hmem : name ∈ s.names := by rwa [← hy, ← heq]
    rw [contains_iff.mpr hmem] at hc
    cases hc

theorem nodup_addAll (names : List String) : ∀ {s : NameSet}, s.names.Nodup →
    (s.addAll names).names.Nodup := by
  induction names with
  | nil => intro s h; exact h
  | cons name names ih => intro s h; exact ih (nodup_add h name)

/-- No name is listed twice. -/
theorem nodup_ofList (names : List String) : (ofList names).names.Nodup :=
  nodup_addAll names List.nodup_nil

/-! ## Counting and finding -/

theorem count_eq (h : s.names.Nodup) (x : String) :
    s.count x = if s.contains x = true then 1 else 0 := by
  rw [count, h.count]
  simp only [contains_iff]

/-- A name is found at the first place where it is listed. -/
theorem index?_eq_some_iff {i : Nat} : s.index? x 0 none = some i ↔
    s.names[i]? = some x ∧ ∀ j < i, s.names[j]? ≠ some x := by
  have hfirst : (max 0 (fromFront s.size 0)).toNat = 0 := by simp [fromFront]
  unfold index?
  simp only [hfirst, List.find?_range_eq_some, Nat.zero_le, decide_true, Bool.true_and,
    beq_iff_eq, Bool.not_eq_true', beq_eq_false_iff_ne, List.mem_range]
  constructor
  · rintro ⟨hi, -, hbefore⟩
    exact ⟨hi, hbefore⟩
  · rintro ⟨hi, hbefore⟩
    exact ⟨hi, (List.getElem?_eq_some_iff.mp hi).1, hbefore⟩

/-- Exactly the known names are found. -/
theorem exists_index?_iff : (∃ i, s.index? x 0 none = some i) ↔ s.contains x = true := by
  rw [contains_iff]
  constructor
  · rintro ⟨i, hi⟩
    exact List.mem_of_getElem? (index?_eq_some_iff.mp hi).1
  · intro hx
    obtain ⟨i, hi⟩ := List.mem_iff_getElem?.mp hx
    cases hfound : s.index? x 0 none with
    | some j => exact ⟨j, rfl⟩
    | none =>
      unfold index? at hfound
      have hnot := List.find?_eq_none.mp hfound i
        (List.mem_range.mpr (List.getElem?_eq_some_iff.mp hi).1)
      simp [fromFront, hi] at hnot

/-- A name keeps its place when another one is given. -/
theorem index?_add {i : Nat} (h : s.index? x 0 none = some i) (name : String) :
    (s.add name).index? x 0 none = some i := by
  obtain ⟨hi, hbefore⟩ := index?_eq_some_iff.mp h
  have hlt := (List.getElem?_eq_some_iff.mp hi).1
  have hsame : ∀ j ≤ i, (s.add name).names[j]? = s.names[j]? := by
    intro j hj
    obtain ⟨more, hmore⟩ := prefix_add s name
    rw [← hmore, List.getElem?_append_left (Nat.lt_of_le_of_lt hj hlt)]
  refine index?_eq_some_iff.mpr ⟨?_, fun j hj => ?_⟩
  · rw [hsame i (Nat.le_refl i), hi]
  · rw [hsame j (Nat.le_of_lt hj)]
    exact hbefore j hj

/-! ## Histories -/

/-- What is known of a set that has been given some names. -/
structure Records (given : List String) (s : NameSet) : Prop where
  /-- The distinct names, each where it first occurs. -/
  names_eq : s.names = given.eraseDups
  contains_iff_mem : ∀ x, s.contains x = true ↔ x ∈ given
  contains_iff_count : ∀ x, s.contains x = true ↔ s.count x = 1
  count_eq_zero : ∀ x, s.contains x = false ↔ s.count x = 0
  contains_iff_index : ∀ x, s.contains x = true ↔ ∃ i : Nat, s.index? x 0 none = some i
  /-- The name in the place that is found is the one that was looked for. -/
  at_index : ∀ (x : String) (i : Nat), s.index? x 0 none = some i → at? s.names i = some x

/-- The list alone tells what is known, as the set is in step with it. -/
theorem Records.of_names (h : s.names = before.eraseDups) (hnodup : s.names.Nodup) :
    Records before s where
  names_eq := h
  contains_iff_mem x := by rw [contains_iff, h, List.mem_eraseDups]
  contains_iff_count x := by
    rw [count_eq hnodup]
    cases s.contains x <;> simp
  count_eq_zero x := by
    rw [count_eq hnodup]
    cases s.contains x <;> simp
  contains_iff_index x := exists_index?_iff.symm
  at_index x i hi := by
    rw [at?_natCast]
    exact (index?_eq_some_iff.mp hi).1

/-- **A set of names records its history.** Whatever names it was made from and whatever names have
been added since, it lists them where they first occurred, and what it contains, counts and finds is
what it lists. This stays so with every further name, which changes no place in the list. Two sets
are equal if and only if the first occurrences in their histories are the same. -/
theorem records_history (initial added : List String) :
    Records (initial ++ added) ((ofList initial).addAll added) ∧
    (∀ name, Records (initial ++ added ++ [name]) (((ofList initial).addAll added).add name) ∧
      ((ofList initial).addAll added).names <+: (((ofList initial).addAll added).add name).names ∧
      ∀ (x : String) (i : Nat), ((ofList initial).addAll added).index? x 0 none = some i →
        (((ofList initial).addAll added).add name).index? x 0 none = some i) ∧
    ∀ initial' added' : List String,
      ((ofList initial).addAll added == (ofList initial').addAll added') = true ↔
        (initial ++ added).eraseDups = (initial' ++ added').eraseDups := by
  have hnames := names_addAll_ofList initial added
  have hnodup := nodup_addAll added (nodup_ofList initial)
  refine ⟨.of_names hnames hnodup, fun name => ⟨?_, prefix_add _ name, fun x i hi =>
    index?_add hi name⟩, fun initial' added' => ?_⟩
  · exact .of_names (names_add hnames name) (nodup_add hnodup name)
  · rw [beq_iff_eq, NameSet.ext_iff, hnames, names_addAll_ofList]

end NameSet

end Propositional
