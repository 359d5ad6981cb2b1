import Propositional.Assignment

/-!
# Rows

A row holds an assignment to the names of a table and the truth value of the formula under it. The
rows are numbered from 0, and a row's number is the number of its assignment.

* `rowAt`, `allRows` — one row, and all of them in order.
* `RowCursor` — the rows one at a time. A cursor that has failed or come to its end gives nothing
  more.
* `openRows`, `buildRows` — a cursor, and all rows at once, if there are not too many names.
-/

namespace Propositional

structure Row where
  index : Nat
  assignment : Assignment
  result : Bool
  deriving DecidableEq, Repr

/-- The row with the given number. The nodes are the formula in reverse Polish notation, and the
digit places are shared by all rows. -/
def rowAt (nodes : List Formula) (names : List String) (places : PlaceTable) (index : Nat) :
    Except EvalError Row :=
  let assignment : Assignment := ⟨names, places, index⟩
  (evaluatePolish assignment.environment nodes).map (⟨index, assignment, ·⟩)

/-- All rows, in order. -/
def allRows (f : Formula) (names : List String) : Except EvalError (List Row) :=
  (List.range (assignmentCount names.length)).mapM (rowAt f.bottomUp names (placeTable names))

/-! ## One row at a time -/

/-- A place among the rows. -/
structure RowCursor where
  nodes : List Formula
  names : List String
  places : PlaceTable
  next : Nat
  closed : Bool

namespace RowCursor

/-- The place before the first row. -/
def start (f : Formula) (names : List String) : RowCursor :=
  ⟨f.bottomUp, names, placeTable names, 0, false⟩

/-- The next row, if there is one. -/
def pull (c : RowCursor) : Except EvalError (Option Row) × RowCursor :=
  if c.closed || assignmentCount c.names.length ≤ c.next then (.ok none, { c with closed := true })
  else
    match rowAt c.nodes c.names c.places c.next with
    | .ok row => (.ok (some row), { c with next := c.next + 1 })
    | .error e => (.error e, { c with closed := true })

/-- How many rows lie behind the place, whether or not they can be evaluated. -/
def remaining (c : RowCursor) : Nat := assignmentCount c.names.length - c.next

/-- A row that is given out does not lie behind the place any more. -/
theorem remaining_of_pull {c c' : RowCursor} {row : Row} (h : c.pull = (.ok (some row), c')) :
    c'.remaining < c.remaining := by
  unfold pull at h
  split at h
  · cases h
  · rename_i hopen
    have hnext : c.next < assignmentCount c.names.length := by
      simp only [Bool.or_eq_true, decide_eq_true_eq] at hopen
      omega
    split at h
    · cases h
      exact Nat.sub_succ_lt_self _ _ hnext
    · cases h

/-- The next rows, as many as asked for or as there are. -/
def pullMany (c : RowCursor) : Nat → Except EvalError (List Row) × RowCursor
  | 0 => (.ok [], c)
  | n + 1 =>
    match c.pull with
    | (.error e, c) => (.error e, c)
    | (.ok none, c) => (.ok [], c)
    | (.ok (some row), c) =>
      let (rows, c) := c.pullMany n
      (rows.map (row :: ·), c)

end RowCursor

/-! ## The number of variables -/

/-- There are more variables than allowed. -/
structure TooManyVariables where
  count : Int
  limit : Int
  deriving DecidableEq, Repr

def TooManyVariables.message (e : TooManyVariables) : String :=
  "Expression has " ++ toString e.count ++ " variables, the limit is " ++ toString e.limit

/-- The limit where none is given. -/
def defaultLimit : Int := 20

def checkCount (count : Nat) (limit : Int) : Except TooManyVariables Unit :=
  if limit < count then .error ⟨count, limit⟩ else .ok ()

theorem checkCount_of_le {count : Nat} {limit : Int} (h : count ≤ limit) :
    checkCount count limit = .ok () := if_neg (Int.not_lt.mpr h)

/-- The place before the first row of a formula over some names, which must not be too many. -/
def openRows (f : Formula) (names : List String) (limit : Int) :
    Except TooManyVariables RowCursor :=
  (checkCount names.length limit).map fun _ => .start f names

theorem openRows_of_le {f : Formula} {names : List String} {limit : Int} (h : names.length ≤ limit) :
    openRows f names limit = .ok (.start f names) := by
  rw [openRows, checkCount_of_le h]
  rfl

/-- Why a formula has no rows. -/
inductive RowsError where
  | tooManyVariables (error : TooManyVariables)
  | eval (error : EvalError)
  deriving Repr

/-- The names of the columns: those that are given, or else the variables of the formula. -/
def columnNames (f : Formula) (given : Option (List String)) : List String :=
  given.getD f.names.names

/-- All rows of a formula over its columns, which must not be too many. -/
def buildRows (f : Formula) (given : Option (List String)) (limit : Int) :
    Except RowsError (List Row) := do
  let names := columnNames f given
  (checkCount names.length limit).mapError .tooManyVariables
  (allRows f names).mapError .eval

theorem buildRows_of_le {f : Formula} {given : Option (List String)} {limit : Int}
    (h : (columnNames f given).length ≤ limit) :
    buildRows f given limit = (allRows f (columnNames f given)).mapError .eval := by
  simp only [buildRows, checkCount_of_le h]
  rfl

end Propositional
