import Propositional.Table.Session
import Propositional.Configuration
import Propositional.CommandLine.FileSystem
import Propositional.Main
import Propositional.Proofs.Grammar
import Propositional.Proofs.YardSteps
import Propositional.Proofs.YardRuns
import Propositional.Proofs.Acceptance
import Propositional.Proofs.Precedence
import Propositional.Proofs.YardReading
import Propositional.Proofs.Lexemes
import Propositional.Proofs.Scanning
import Propositional.Proofs.Names
import Propositional.Proofs.Traversal
import Propositional.Proofs.Variables
import Propositional.Proofs.Language
import Propositional.Proofs.TextReading
import Propositional.Proofs.Printing
import Propositional.Proofs.Evaluation
import Propositional.Proofs.Digits
import Propositional.Proofs.Tabulation
import Propositional.Proofs.Strictness
import Propositional.Proofs.EarliestError
import Propositional.Proofs.SourceOrder
import Propositional.Proofs.MaximalMunch
import Propositional.Proofs.Separation
import Propositional.Proofs.AcceptedTexts
import Propositional.Proofs.Cursors
import Propositional.Proofs.Borders
import Propositional.Proofs.Sessions
import Propositional.Proofs.LateHeadings
import Propositional.Proofs.Lockstep
import Propositional.Proofs.Renaming
import Propositional.Proofs.ClassOrder
import Propositional.Proofs.CoreLanguage
import Propositional.Proofs.Decoding
import Propositional.Proofs.FirstLines
import Propositional.Proofs.WholeOutput
import Propositional.Proofs.Tiling
import Propositional.Proofs.PolishNotation
import Propositional.Proofs.Parentheses
import Propositional.Proofs.Diagnoses
import Propositional.Proofs.ConsoleText
import Propositional.Proofs.Carets
import Propositional.Proofs.Numbering
import Propositional.Proofs.FirstRow
import Propositional.Proofs.Columns
import Propositional.Proofs.CollectedNames
import Propositional.Proofs.Positions
import Propositional.Proofs.Spellings
import Propositional.Proofs.Frames
