import CalcDoc.Main
import CalcDoc.Proofs.Grammar.Derivation
import CalcDoc.Proofs.Grammar.Soundness
import CalcDoc.Proofs.Grammar.Levels
import CalcDoc.Proofs.Grammar.Rungs
import CalcDoc.Proofs.Grammar.Completeness
import CalcDoc.Proofs.Grammar.Programs
import CalcDoc.Proofs.Grammar.Steps
import CalcDoc.Proofs.Grammar.Height
import CalcDoc.Proofs.Lexemes.Scanning
import CalcDoc.Proofs.Spelling
import CalcDoc.Proofs.Grammar.Tallest
import CalcDoc.Proofs.Evaluation.Results
import CalcDoc.Proofs.Bytes
import CalcDoc.Proofs.Numbers.Lengths
import CalcDoc.Proofs.Evaluation.Operators
import CalcDoc.Proofs.Documents.References
import CalcDoc.Proofs.Documents.Decomposition
import CalcDoc.Proofs.Documents.Release
import CalcDoc.Proofs.Documents.Abort
import CalcDoc.Proofs.Documents.Keeping
import CalcDoc.Proofs.Documents.Checking
import CalcDoc.Proofs.Grammar.Literals
import CalcDoc.Proofs.Lexemes.Tokens
import CalcDoc.Proofs.Lexemes.Joined
import CalcDoc.Proofs.Grammar.Placement
import CalcDoc.Proofs.Grammar.Joined
import CalcDoc.Proofs.Definedness.Slices
import CalcDoc.Proofs.Definedness.Cursor
import CalcDoc.Proofs.Definedness.Reading
import CalcDoc.Proofs.Definedness.Operators
import CalcDoc.Proofs.Definedness.Execution
import CalcDoc.Proofs.Documents.Memory
import CalcDoc.Proofs.Documents.Fragments
import CalcDoc.Proofs.Documents.Eager
import CalcDoc.Proofs.Templates.Progress
import CalcDoc.Proofs.Lines
import CalcDoc.Proofs.Trimming
import CalcDoc.Proofs.Templates.Outline
import CalcDoc.Proofs.Templates.Nesting
import CalcDoc.Proofs.Templates.Bare
import CalcDoc.Proofs.Templates.Questions
import CalcDoc.Proofs.Templates.Closed
import CalcDoc.Proofs.Templates.Shown
import CalcDoc.Proofs.Documents.Forms
import CalcDoc.Proofs.Documents.Counting
import CalcDoc.Proofs.Documents.Echo
import CalcDoc.Proofs.Documents.Stripped
import CalcDoc.Proofs.Lexemes.Written
import CalcDoc.Proofs.Grammar.Parenthesized
import CalcDoc.Proofs.Files.Disks
import CalcDoc.Proofs.Command.Deliveries
import CalcDoc.Proofs.Evaluation.Equality
import CalcDoc.Proofs.Evaluation.Quotients
import CalcDoc.Proofs.Documents.Fences
import CalcDoc.Proofs.Json.Quoted
import CalcDoc.Proofs.Settings.Files
import CalcDoc.Proofs.Documents.Failures
import CalcDoc.Proofs.Evaluation.Remainders
import CalcDoc.Proofs.Evaluation.Powers
import CalcDoc.Proofs.Numbers.Ranges
import CalcDoc.Proofs.Numbers.Canonical
import CalcDoc.Proofs.Numbers.Values
import CalcDoc.Proofs.Numbers.Nearest
import CalcDoc.Proofs.Numbers.Conversion
import CalcDoc.Proofs.Evaluation.Roundings
import CalcDoc.Proofs.Evaluation.Extremes
import CalcDoc.Proofs.Evaluation.Locality
import CalcDoc.Proofs.Documents.Runs
import CalcDoc.Proofs.Lexemes.Sites
import CalcDoc.Proofs.Grammar.Halting
import CalcDoc.Proofs.Grammar.Rejection
import CalcDoc.Proofs.Documents.Idle
import CalcDoc.Proofs.Command.Warnings
import CalcDoc.Proofs.Files.Changes
import CalcDoc.Proofs.Command.FirstFailure
import CalcDoc.Proofs.Numerals
import CalcDoc.Proofs.Numbers.Shortest
import CalcDoc.Proofs.Numbers.Displays
import CalcDoc.Proofs.Evaluation.Conversions
import CalcDoc.Proofs.Evaluation.Displayed
import CalcDoc.Proofs.Definedness.Progress
