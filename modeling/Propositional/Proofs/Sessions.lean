import Propositional.Proofs.Cursors
import Propositional.Table.Session

/-!
# Cursors over a table in use

* `Session.Change` — everything that one step can do to a session.
* `Session.performAll_invariant` — what every step keeps is kept by all of them.
* `Session.pulls` — what some steps ask of one cursor, and the answers.
* `Session.Deals` — the answers deal a list out, from its beginning on.
* `Session.deals_pulls` — if one pull takes the next items of a list, all pulls deal it out.
* `Session.pulled_rows` — whatever happens in a session, a cursor over the rows gives out the rows
  over the names at the time when it was opened.
-/

namespace Propositional

namespace Session

/-! ## What a step can do -/

/-- What a step can do to a session. -/
inductive Change (s : Session) : Step → Session → Prop
  | nothing (step : Step) : Change s step s
  | addName {names : NameSet} (name : String) (hnames : s.table.columns = .growing names) :
      Change s (.addName name)
        { s with table := { s.table with columns := .growing (names.add name) } }
  | setText (text : String) : Change s (.setText text) { s with table := { s.table with text } }
  | openLines : Change s .openLines { s with lineCursors := s.lineCursors ++ [s.table.openLines] }
  | openRows : Change s .openRows { s with rowCursors := s.rowCursors ++ [s.table.openRows] }
  | pullLines {cursor : Int} {count i : Nat} {c : LineCursor}
      (hplace : place? s.lineCursors.length cursor = some i) (hc : s.lineCursors[i]? = some c) :
      Change s (.nextLines cursor count)
        { s with lineCursors := s.lineCursors.set i (c.pullMany s.table.names count).2 }
  | pullRows {cursor : Int} {count i : Nat} {c : RowCursor}
      (hplace : place? s.rowCursors.length cursor = some i) (hc : s.rowCursors[i]? = some c) :
      Change s (.nextRows cursor count)
        { s with rowCursors := s.rowCursors.set i (c.pullMany count).2 }

section

variable {s : Session} {cursor : Int} {i : Nat}

theorem perform_nextLines {c : LineCursor} (hplace : place? s.lineCursors.length cursor = some i)
    (hc : s.lineCursors[i]? = some c) (count : Nat) :
    s.perform (.nextLines cursor count) =
      (((c.pullMany s.table.names count).1.mapError (.render <| .eval ·)).map .texts,
        { s with lineCursors := s.lineCursors.set i (c.pullMany s.table.names count).2 }) := by
  simp only [perform, pullLines, hplace, hc]

theorem perform_nextRows {c : RowCursor} (hplace : place? s.rowCursors.length cursor = some i)
    (hc : s.rowCursors[i]? = some c) (count : Nat) :
    s.perform (.nextRows cursor count) =
      (((c.pullMany count).1.mapError (.render <| .eval ·)).map .rows,
        { s with rowCursors := s.rowCursors.set i (c.pullMany count).2 }) := by
  simp only [perform, pullRows, hplace, hc]

end

theorem perform_change (s : Session) (step : Step) : Change s step (s.perform step).2 := by
  cases step with
  | addName name =>
    cases hcolumns : s.table.columns with
    | fixed names =>
      simp only [perform, hcolumns]
      exact .nothing _
    | growing names =>
      simp only [perform, hcolumns]
      exact .addName name hcolumns
  | nextLines cursor count =>
    cases hplace : place? s.lineCursors.length cursor with
    | none =>
      simp only [perform, pullLines, hplace]
      exact .nothing _
    | some i =>
      cases hc : s.lineCursors[i]? with
      | none =>
        simp only [perform, pullLines, hplace, hc]
        exact .nothing _
      | some c =>
        rw [perform_nextLines hplace hc]
        exact .pullLines hplace hc
  | nextRows cursor count =>
    cases hplace : place? s.rowCursors.length cursor with
    | none =>
      simp only [perform, pullRows, hplace]
      exact .nothing _
    | some i =>
      cases hc : s.rowCursors[i]? with
      | none =>
        simp only [perform, pullRows, hplace, hc]
        exact .nothing _
      | some c =>
        rw [perform_nextRows hplace hc]
        exact .pullRows hplace hc
  | setText text => exact .setText text
  | openLines => exact .openLines
  | openRows => exact .openRows
  | headings => exact .nothing _
  | rowCount => exact .nothing _
  | display => exact .nothing _
  | format => exact .nothing _
  | render format => exact .nothing _

namespace Change

variable {s s' : Session} {step : Step}

theorem formula_eq (h : Change s step s') : s'.table.formula = s.table.formula := by
  cases h <;> rfl

/-- Names are only ever added, behind those that are there. -/
theorem names_prefix (h : Change s step s') : s.table.names <+: s'.table.names := by
  cases h with
  | addName name hnames =>
    have hbefore : s.table.names = _ := congrArg Columns.names hnames
    rw [hbefore]
    exact NameSet.prefix_add _ name
  | _ => exact List.prefix_rfl

end Change

/-- What every step keeps is kept by all of them. -/
theorem performAll_invariant {I : Session → Prop} {P : Step → Prop}
    (hstep : ∀ {s s' : Session} {step : Step}, P step → Change s step s' → I s → I s') :
    ∀ {steps : List Step} {s : Session}, (∀ step ∈ steps, P step) → I s → I (s.performAll steps).2
  | [], _, _, h => h
  | step :: rest, s, hsteps, h => by
    obtain ⟨hfirst, hrest⟩ := List.forall_mem_cons.mp hsteps
    have hnext : I (s.perform step).2 := hstep hfirst (perform_change s step) h
    have hlast : I ((s.perform step).2.performAll rest).2 := performAll_invariant hstep hrest hnext
    exact hlast

/-- A formula that names cover stays covered, whatever is done with its table. -/
theorem covered_performAll {t : Table} (h : t.formula.CoveredBy t.names) (steps : List Step) :
    let table := ((start t).performAll steps).2.table
    table.formula = t.formula ∧ t.formula.CoveredBy table.names := by
  refine performAll_invariant (I := fun s => s.table.formula = t.formula ∧
    t.formula.CoveredBy s.table.names) (P := fun _ => True) ?_ (fun _ _ => trivial) ⟨rfl, h⟩
  rintro s s' step - hchange ⟨hformula, hcovered⟩
  exact ⟨hchange.formula_eq.trans hformula, hcovered.mono hchange.names_prefix.subset⟩

/-! ## Pulls from one cursor -/

/-- What some steps ask of one cursor, and the answers. How many items a step asks of the cursor, if
it does, depends on the session. -/
def pulls (asked : Session → Step → Option Nat) (s : Session) :
    List Step → List (Nat × Except StepError Answer)
  | [] => []
  | step :: rest =>
    let (answer, s') := s.perform step
    match asked s step with
    | some n => (n, answer) :: pulls asked s' rest
    | none => pulls asked s' rest

section

variable {α : Type}

/-- The answers deal a list out: the next items each time, as many as are asked for or as there are
left. -/
def Deals (answer : List α → Answer) : List α → List (Nat × Except StepError Answer) → Prop
  | _, [] => True
  | xs, (n, given) :: more => given = .ok (answer (xs.take n)) ∧ Deals answer (xs.drop n) more

/-- What has been dealt out is the beginning of the list. -/
theorem Deals.flatMap_eq {answer : List α → Answer} {items : Except StepError Answer → List α}
    (hitems : ∀ xs, items (.ok (answer xs)) = xs) :
    ∀ {pulled : List (Nat × Except StepError Answer)} {xs : List α}, Deals answer xs pulled →
      pulled.flatMap (items ·.2) = xs.take (pulled.map Prod.fst).sum
  | [], xs, _ => by simp
  | (n, given) :: more, xs, ⟨hgiven, hmore⟩ => by
    rw [List.flatMap_cons, flatMap_eq hitems hmore, hgiven, hitems, List.map_cons, List.sum_cons,
      List.take_add]

/-- **If a pull takes the next items of a list, all pulls deal it out.** What is left of the list
may depend on the steps that are still to come, as `I` says. -/
theorem deals_pulls {asked : Session → Step → Option Nat} {answer : List α → Answer}
    {I : Session → List Step → List α → Prop}
    (hother : ∀ {s step rest xs}, I s (step :: rest) xs → asked s step = none →
      I (s.perform step).2 rest xs)
    (hpull : ∀ {s step rest xs n}, I s (step :: rest) xs → asked s step = some n →
      (s.perform step).1 = .ok (answer (xs.take n)) ∧ I (s.perform step).2 rest (xs.drop n)) :
    ∀ {steps : List Step} {s : Session} {xs : List α}, I s steps xs →
      Deals answer xs (s.pulls asked steps)
  | [], _, _, _ => trivial
  | step :: rest, s, xs, h => by
    unfold pulls
    cases hasked : asked s step with
    | none => exact deals_pulls hother hpull (hother h hasked)
    | some n =>
      obtain ⟨hgiven, hleft⟩ := hpull h hasked
      exact ⟨hgiven, deals_pulls hother hpull hleft⟩

end

/-! ## Rows -/

/-- How many rows a step asks of the cursor in the given place. -/
def rowsAsked (k : Nat) (s : Session) : Step → Option Nat
  | .nextRows cursor count =>
    if place? s.rowCursors.length cursor = some k then some count else none
  | _ => none

/-- The rows in an answer. -/
def rowsOf : Except StepError Answer → List Row
  | .ok (.rows rows) => rows
  | _ => []

/-- The cursor in the given place still has these rows. -/
def RowsLeft (k : Nat) (s : Session) (rows : List Row) : Prop :=
  ∃ c, s.rowCursors[k]? = some c ∧ c.Yields rows

variable {s s' : Session} {step : Step} {k : Nat} {rows : List Row}

theorem rowsAsked_eq_some {n : Nat} (h : rowsAsked k s step = some n) :
    ∃ cursor, step = .nextRows cursor n ∧ place? s.rowCursors.length cursor = some k := by
  unfold rowsAsked at h
  split at h
  · split at h
    · rename_i hplace
      cases h
      exact ⟨_, rfl, hplace⟩
    · cases h
  · cases h

/-- Steps that ask nothing of a cursor leave it alone. -/
theorem Change.getElem?_rowCursors {c : RowCursor} (hchange : Change s step s')
    (hc : s.rowCursors[k]? = some c) (hasked : rowsAsked k s step = none) :
    s'.rowCursors[k]? = some c := by
  cases hchange with
  | openRows =>
    rw [List.getElem?_append_left (List.getElem?_eq_some_iff.mp hc).1]
    exact hc
  | pullRows hplace =>
    rename_i i _ _
    have hne : i ≠ k := by
      rintro rfl
      simp [rowsAsked, hplace] at hasked
    rw [List.getElem?_set_ne hne]
    exact hc
  | _ => exact hc

theorem RowsLeft.of_not_asked (h : RowsLeft k s rows) (hasked : rowsAsked k s step = none) :
    RowsLeft k (s.perform step).2 rows := by
  obtain ⟨c, hc, hyields⟩ := h
  exact ⟨c, (perform_change s step).getElem?_rowCursors hc hasked, hyields⟩

/-- A step that asks for rows gets the next ones. -/
theorem RowsLeft.of_asked (h : RowsLeft k s rows) {n : Nat} (hasked : rowsAsked k s step = some n) :
    (s.perform step).1 = .ok (.rows (rows.take n)) ∧
      RowsLeft k (s.perform step).2 (rows.drop n) := by
  obtain ⟨c, hc, hyields⟩ := h
  obtain ⟨cursor, rfl, hplace⟩ := rowsAsked_eq_some hasked
  obtain ⟨c', hpull, hyields'⟩ := RowCursor.pullMany_of_yields n hyields
  have hlt : k < s.rowCursors.length := (List.getElem?_eq_some_iff.mp hc).1
  rw [perform_nextRows hplace hc, hpull]
  exact ⟨rfl, c', by rw [List.getElem?_set_self hlt], hyields'⟩

/-- **A cursor over the rows is a snapshot.** In every session over the table of a text, what any
further steps take from such a cursor are the rows over the names at the time when it was opened:
all of them in order, none left out, none twice, and nothing behind the last one. -/
theorem pulled_rows {lexer : Lexer} {text : String} {limit : Int} {t : Table}
    (ht : Table.generate lexer text limit = .ok t) (before after : List Step) :
    let s := ((start t).performAll before).2
    let k := s.rowCursors.length
    let pulled := (s.perform .openRows).2.pulls (rowsAsked k) after
    (s.perform .openRows).1 = .ok (.number k) ∧
      ∃ rows, allRows t.formula s.table.names = .ok rows ∧
        rows.length = 2 ^ s.table.names.length ∧ Deals .rows rows pulled ∧
          pulled.flatMap (rowsOf ·.2) = rows.take (pulled.map Prod.fst).sum := by
  intro s k pulled
  obtain ⟨hformula, hcovered⟩ :=
    covered_performAll (Table.tabular_of_generate ht).covered before
  obtain ⟨rows, hrows, hcount, -, -⟩ := hcovered.exists_rows
  have hopened : RowsLeft k (s.perform .openRows).2 rows := by
    refine ⟨s.table.openRows, List.getElem?_concat_length, ?_⟩
    rw [Table.openRows, hformula]
    exact RowCursor.yields_start hrows
  have hdeals : Deals .rows rows pulled :=
    deals_pulls (I := fun s _ rows => RowsLeft k s rows)
      RowsLeft.of_not_asked (fun h hasked => h.of_asked hasked) hopened
  exact ⟨rfl, rows, hrows, hcount, hdeals, hdeals.flatMap_eq fun _ => rfl⟩

theorem pulled_rows_grown : ∃ t rows, Table.generate .default "A ^ B" 20 = .ok t ∧
    allRows t.formula ["A", "B"] = .ok rows ∧ rows.length = 4 ∧
      let opened := ((start t).perform .openRows).2
      let pulled := opened.pulls (rowsAsked 0)
        [.nextRows 0 1, .addName "C", .openRows, .nextRows (-1) 5, .setText "T", .nextRows (-2) 9]
      pulled.map Prod.fst = [1, 9] ∧ pulled.flatMap (rowsOf ·.2) = rows := by
  obtain ⟨t, ht, hcolumns⟩ : ∃ t, Table.generate .default "A ^ B" 20 = .ok t ∧
      t.columns = .growing (.ofList ["A", "B"]) := ⟨_, rfl, rfl⟩
  have hnames : t.names = ["A", "B"] := congrArg Columns.names hcolumns
  obtain ⟨-, rows, hrows, hcount, -, htaken⟩ := pulled_rows ht []
    [.nextRows 0 1, .addName "C", .openRows, .nextRows (-1) 5, .setText "T", .nextRows (-2) 9]
  have hstart : ((start t).performAll []).2.table.names = ["A", "B"] := hnames
  rw [hstart] at hrows hcount
  have hasked : (pulls (rowsAsked 0) ((start t).perform .openRows).2 [.nextRows 0 1, .addName "C",
      .openRows, .nextRows (-1) 5, .setText "T", .nextRows (-2) 9]).map Prod.fst = [1, 9] := by
    obtain ⟨text, formula, columns⟩ := t
    cases hcolumns
    rfl
  refine ⟨t, rows, ht, hrows, hcount, hasked, ?_⟩
  have hall : rows.take ([1, 9] : List Nat).sum = rows :=
    List.take_of_length_le (by rw [hcount]; decide)
  rw [← hall, ← hasked]
  exact htaken

end Session

end Propositional
