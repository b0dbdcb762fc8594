import ContractLint.Main
import ContractLint.Tree.Node
import ContractLint.Proofs.Lexeme
import ContractLint.Proofs.Reach
import ContractLint.Proofs.Bisection
import ContractLint.Proofs.Line
import ContractLint.Proofs.Tiling
import ContractLint.Proofs.Completeness
import ContractLint.Proofs.Isolation
import ContractLint.Proofs.Progress
import ContractLint.Proofs.Provenance
import ContractLint.Proofs.Arrangement
import ContractLint.Proofs.Call
import ContractLint.Proofs.Passage
import ContractLint.Proofs.Production
import ContractLint.Proofs.RoutineProduction
import ContractLint.Proofs.DeclarationProduction
import ContractLint.Proofs.ClauseProduction
import ContractLint.Proofs.Notice
import ContractLint.Proofs.Reading
import ContractLint.Proofs.Attempt
import ContractLint.Proofs.Verdict
import ContractLint.Proofs.Point
import ContractLint.Proofs.Place
import ContractLint.Proofs.Canonical
import ContractLint.Proofs.ClauseKeeping
import ContractLint.Proofs.InlineAgent
import ContractLint.Proofs.Search
import ContractLint.Proofs.Likeness
import ContractLint.Proofs.LikeSpans
import ContractLint.Proofs.LikeReadings
import ContractLint.Proofs.LineEnd
import ContractLint.Proofs.LetterCase
import ContractLint.Proofs.BlankLine
import ContractLint.Proofs.LineFeed
import ContractLint.Proofs.OneLine
import ContractLint.Proofs.Covering
import ContractLint.Proofs.SourceOrder
import ContractLint.Proofs.RuleReport
import ContractLint.Proofs.SpanEntry
import ContractLint.Proofs.Labeling
import ContractLint.Proofs.Decoding
import ContractLint.Proofs.Schedule
import ContractLint.Proofs.LineLayout
import ContractLint.Proofs.Fork
import ContractLint.Proofs.NoteSite
import ContractLint.Proofs.ClosingNote
import ContractLint.Proofs.EscapeGrammar
import ContractLint.Proofs.Conversion
import ContractLint.Proofs.Segmentation
import ContractLint.Proofs.Balance
import ContractLint.Proofs.Seam
import ContractLint.Proofs.Splitting
import ContractLint.Proofs.VoidTest
import ContractLint.Proofs.Lookup
import ContractLint.Proofs.EscapeReport
import ContractLint.Proofs.Quantification
import ContractLint.Proofs.LineIndex
import ContractLint.Proofs.DeclaredName
import ContractLint.Proofs.Renaming
import ContractLint.Proofs.Numeral
import ContractLint.Proofs.Scanner
import ContractLint.Proofs.SexpReader
import ContractLint.Proofs.TreeDump
import ContractLint.Proofs.JsonReader
import ContractLint.Proofs.JsonReport
import ContractLint.Proofs.AgentArgument
import ContractLint.Proofs.Walk
