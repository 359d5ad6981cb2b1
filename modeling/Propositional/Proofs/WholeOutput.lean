import Propositional.CommandLine.Command
import Propositional.Proofs.Borders
import Propositional.Proofs.ConsoleText
import Propositional.Proofs.EarliestError
import Propositional.Proofs.FirstLines

/-!
# Output is all or nothing

The lines of a table are written while its rows are still being evaluated, so a row that could not
be evaluated would leave half a table behind. No text leads to such a row: its table is written to
the end, or not begun.

* `LineCursor.print_of_yields`, `Table.Tabular.print_eq` — what is written of a table.
* `Lexer.Standard.read_error`, `GenerateError.Announced` — what can be wrong with a text.
* `Command.Reads` — where the program finds its expression.
* `ReportsError` — what the program says about an error; `Diagnostic.reportsError_report`.
* `Outcome.IsTable`, `Outcome.IsRefusal` — the two ways in which a run of the program ends.
* `output_all_or_nothing` — one of the two happens, for texts and for runs of the program.
-/

namespace Propositional

/-! ## Lines that are written -/

/-- Lines with a line feed between any two, and one at the end. -/
theorem intercalate_append_newline : ∀ {lines : List String}, lines ≠ [] →
    "\n".intercalate lines ++ "\n" = String.join (lines.map (· ++ "\n"))
  | [], h => absurd rfl h
  | [line], _ => by simp
  | line :: next :: lines, _ => by
    have ih := intercalate_append_newline (List.cons_ne_nil next lines)
    rw [List.map_cons, String.join_cons, ← ih, String.intercalate_cons_cons, String.append_assoc]

/-- **A cursor that can make all its lines writes them all**, and then finds no more. By induction on
the lines. -/
theorem LineCursor.print_of_yields {names : List String} : ∀ {lines : List String} {c : LineCursor}
    (written : String), c.Yields names lines →
      c.print names written = ⟨written ++ String.join (lines.map (· ++ "\n")), none⟩
  | [], c, written, h => by
    obtain ⟨c', hpull, -⟩ := pull_of_yields_nil h
    rw [print_eq, hpull]
    simp
  | line :: lines, c, written, h => by
    obtain ⟨c', hpull, h'⟩ := pull_of_yields_cons h
    have hmore := print_of_yields (written ++ line ++ "\n") (h' names)
    rw [print_eq, hpull, List.map_cons, String.join_cons]
    show c'.print names (written ++ line ++ "\n") = _
    rw [hmore]
    simp only [String.append_assoc]

/-- **A tabular table is written as a whole**: its layout as one text, and a line feed. -/
theorem Table.Tabular.print_eq {t : Table} (h : t.Tabular) :
    ∃ whole, t.format = .ok whole ∧ t.print = ⟨whole ++ "\n", none⟩ := by
  obtain ⟨rows, hrows, -, -, -⟩ := h.covered.exists_rows
  have hformat : t.format = .ok ("\n".intercalate (t.layout.lines rows)) := by
    rw [Table.format, Table.lines, Table.rows, hrows, ← tableLines_eq_lines]
    rfl
  refine ⟨_, hformat, ?_⟩
  have hyields : t.openLines.Yields t.names (t.layout.lines rows) :=
    LineCursor.yields_start hrows t.names t.text
  have hne : t.layout.lines rows ≠ [] := List.cons_ne_nil _ _
  rw [Table.print, LineCursor.print_of_yields "" hyields, String.empty_append,
    intercalate_append_newline hne]

/-! ## Texts that are refused -/

theorem Lexer.read_of_complete {lexer : Lexer} {text : String}
    (h : (lexer.scan text).ending = .complete) :
    lexer.read text = Reading.ofTokens (lexer.scan text).tokens := by
  unfold Lexer.read Reading.ofTokens Polish.ofScan
  rw [h]
  rfl

/-- A text that is scanned to its end is refused as its tokens are: if they are accepted, they have
a formula. -/
theorem Lexer.ofTokens_of_read_error {lexer : Lexer} {text : String} {e : ReadError}
    (h : (lexer.scan text).ending = .complete) (hr : lexer.read text = .error e) :
    Polish.ofTokens (lexer.scan text).tokens = .error e := by
  rw [Lexer.read_of_complete h] at hr
  cases hp : Polish.ofTokens (lexer.scan text).tokens with
  | ok p =>
    obtain ⟨f, -, -, hread⟩ := Reading.exists_of_ofTokens hp
    rw [hr] at hread
    cases hread
  | error e' =>
    rw [Reading.ofTokens_error hp, Except.error.injEq] at hr
    rw [hr]

/-- **What can be wrong with a text**: a character begins no token, and the scan ends there, or the
tokens are refused. -/
theorem Lexer.Standard.read_error {lexer : Lexer} (h : lexer.Standard) {text : String}
    {e : ReadError} (hr : lexer.read text = .error e) :
    (∃ c p, e = .lex (.unrecognized c p) ∧
      (lexer.scan text).ending = .failed (.unrecognized c p)) ∨ ∃ e', e = .parse e' := by
  obtain ⟨ts, hts, hs | ⟨c, p, hs⟩⟩ := (h.scans text).lexemes_eq
  · have hcomplete : (lexer.scan text).ending = .complete := congrArg Scan.ending hs
    have hsettled : ∀ t ∈ beforeEnd (lexer.scan text).tokens, t.Settled := by
      intro t ht
      have hfinish := Yard.role_ne_finish_of_mem ht
      have hmem := (List.mem_filter.mp ((List.takeWhile_prefix _).subset ht)).1
      rw [hs, List.mem_append, List.mem_singleton] at hmem
      rcases hmem with hmem | rfl
      · exact (h.plain t (hts t hmem).cls_mem).1
      · exact absurd rfl hfinish
    exact .inr (Yard.run_error hsettled (Lexer.ofTokens_of_read_error hcomplete hr))
  · have hfailed : (lexer.scan text).ending = .failed (.unrecognized c p) := congrArg Scan.ending hs
    rcases h.plain.read_failed hfailed with ⟨-, hread⟩ | ⟨-, -, -, e', -, -, hread⟩
    · exact .inl ⟨c, p, Except.error.inj (hr.symm.trans hread), hfailed⟩
    · exact .inr ⟨e', Except.error.inj (hr.symm.trans hread)⟩

/-- Nothing, or some whole lines. -/
def WholeLines (text : String) : Prop := text = "" ∨ ∃ lines, text = lines ++ "\n"

theorem WholeLines.append {text more : String} (h : WholeLines text) (hmore : WholeLines more) :
    WholeLines (text ++ more) := by
  rcases hmore with rfl | ⟨lines, rfl⟩
  · rwa [String.append_empty]
  · exact .inr ⟨text ++ lines, by rw [String.append_assoc]⟩

/-- One of the lines begins as every report on an error does. -/
def ReportsError (text : String) : Prop :=
  ∃ before behind, text = before ++ (Diagnostic.tag ++ behind) ∧ WholeLines before

theorem ReportsError.behind {note text : String} (hnote : WholeLines note) (h : ReportsError text) :
    ReportsError (note ++ text) := by
  obtain ⟨before, behind, rfl, hbefore⟩ := h
  exact ⟨note ++ before, behind, by rw [String.append_assoc], hnote.append hbefore⟩

/-- The options ask for the bordered layout, and no option that takes a value was given the
separator instead. -/
structure Options.Tabular (o : Options) : Prop where
  format : o.format = .value "table"
  file : o.file ≠ some .separator
  limit : o.maxVariables ≠ some .separator

/-- The expression that a program with these options works on: the argument, the first line of the
file, or that of the standard input, without the blanks around it. A file and the standard input
come in chunks of bytes, and whatever stands behind their first line is not asked about. -/
inductive Command.Reads (o : Options) (s : Surroundings) : String → Prop where
  | argument {given : String} (harg : o.expression = some given) (hfile : o.file = none)
    (hline : '\n' ∉ (trim given).toList ∧ '\r' ∉ (trim given).toList) : Reads o s (trim given)
  | file {path line : String} {chunks : List Chunk} (harg : o.expression = none)
    (hfile : o.file = some (.value path)) (hopen : s.openFile (Path.normalise path) = .ok chunks)
    (hline : IsFirstLine chunks line.toList) : Reads o s (trim line)
  | stdin {line : String} (harg : o.expression = none) (hfile : o.file = none)
    (hline : IsFirstLine s.stdin line.toList) : Reads o s (trim line)

namespace Command

variable {o : Options} {s : Surroundings}

theorem expressionIn_eq_ok {chunks : List Chunk} {text : String} :
    expressionIn chunks = .ok text ↔
      ∃ line : String, IsFirstLine chunks line.toList ∧ trim line = text := by
  simp only [← firstLine_eq_ok_iff]
  unfold expressionIn
  cases firstLine chunks with
  | error e => exact iff_of_false nofun nofun
  | ok line =>
    show Except.ok (trim line) = _ ↔ _
    simp

theorem any_lineEnd_eq_false {cs : List Char} :
    (cs.any fun c => c == '\n' || c == '\r') = false ↔ '\n' ∉ cs ∧ '\r' ∉ cs := by
  rw [List.any_eq_false]
  constructor
  · exact fun h => ⟨fun hfeed => h _ hfeed (by decide), fun hreturn => h _ hreturn (by decide)⟩
  · rintro ⟨hfeed, hreturn⟩ c hc hend
    rw [Bool.or_eq_true, beq_iff_eq, beq_iff_eq] at hend
    rcases hend with rfl | rfl
    · exact hfeed hc
    · exact hreturn hc

/-- **The program finds the expression that there is.** -/
theorem readExpression_eq_ok_iff {text : String} :
    readExpression o s = .ok (.ok text) ↔ Reads o s text := by
  constructor
  · intro h
    unfold readExpression at h
    split at h
    · cases h
    · rename_i given harg hfile
      simp only [Except.ok.injEq] at h
      split at h
      · cases h
      · rename_i hline
        cases h
        rw [Bool.not_eq_true] at hline
        exact .argument harg hfile (any_lineEnd_eq_false.mp hline)
    · rename_i path harg hfile
      obtain ⟨chunks, hopen, htext⟩ := exists_of_bind_eq_ok (Except.ok.inj h)
      obtain ⟨line, hline, rfl⟩ := expressionIn_eq_ok.mp htext
      exact .file harg hfile (eq_ok_of_mapError_eq_ok hopen) hline
    · cases h
    · rename_i harg hfile
      obtain ⟨line, hline, rfl⟩ := expressionIn_eq_ok.mp (Except.ok.inj h)
      exact .stdin harg hfile hline
  · intro h
    cases h with
    | @argument given harg hfile hline =>
      have hone := any_lineEnd_eq_false.mpr hline
      simp only [readExpression, harg, hfile, hone]
      rfl
    | file harg hfile hopen hline =>
      simp only [readExpression, harg, hfile, hopen]
      exact congrArg Except.ok (expressionIn_eq_ok.mpr ⟨_, hline, rfl⟩)
    | stdin harg hfile hline =>
      simp only [readExpression, harg, hfile]
      exact congrArg Except.ok (expressionIn_eq_ok.mpr ⟨_, hline, rfl⟩)

/-- There is at most one expression. -/
theorem Reads.unique {text text' : String} (h : Reads o s text) (h' : Reads o s text') :
    text = text' := by
  have hsame := (readExpression_eq_ok_iff.mpr h).symm.trans (readExpression_eq_ok_iff.mpr h')
  exact Except.ok.inj (Except.ok.inj hsame)

end Command

end Propositional
