/-!
# Positions counted from either end

Places in a list may be given by signed numbers: a negative one counts from the end.

* `at?` — the item at a place, if the place exists.
* `slice` — the items between two places, each place moved to the nearest existing one.
* `stepSlice` — every so many items between two places, forwards or backwards; a step of nothing
  is refused.
-/

namespace Propositional

variable {α : Type}

/-- A place counted from the front, when the list has `n` items. -/
def fromFront (n : Nat) (i : Int) : Int := if i < 0 then i + n else i

/-- The nearest place at or between the two bounds. -/
def clamp (lo hi i : Int) : Int := if i < lo then lo else if hi < i then hi else i

/-- The item at a place. -/
def at? (xs : List α) (i : Int) : Option α :=
  let j := fromFront xs.length i
  if j < 0 then none else xs[j.toNat]?

theorem fromFront_natCast (n i : Nat) : fromFront n i = i := if_neg (by omega)

theorem at?_natCast (xs : List α) (i : Nat) : at? xs i = xs[i]? := by
  rw [at?, fromFront_natCast]
  exact if_neg (by omega)

/-- The items from one place up to another. -/
def slice (xs : List α) (start stop : Int) : List α :=
  let place (i : Int) : Nat := (clamp 0 xs.length (fromFront xs.length i)).toNat
  (xs.take (place stop)).drop (place start)

/-- Every `step`-th item from one place up to another; a missing place is the end that the step
comes from or goes to. `none` for a step of nothing. -/
def stepSlice (xs : List α) (start stop step : Option Int) : Option (List α) :=
  let n : Int := xs.length
  let step := step.getD 1
  if step = 0 then none
  else
    let lo := if step < 0 then -1 else 0
    let hi := if step < 0 then n - 1 else n
    let place (i : Option Int) (missing : Int) : Int :=
      match i with
      | some i => clamp lo hi (fromFront xs.length i)
      | none => missing
    let first := place start (if step < 0 then hi else lo)
    let last := place stop (if step < 0 then lo else hi)
    let gap := if step < 0 then first - last else last - first
    let size := step.natAbs
    let count := if gap ≤ 0 then 0 else (gap.toNat + size - 1) / size
    some ((List.range count).filterMap fun (k : Nat) => xs[(first + k * step).toNat]?)

end Propositional
