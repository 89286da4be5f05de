import FormulaSheet.Main
import FormulaSheet.Proofs.Document.Step
import FormulaSheet.Proofs.Evaluation.Memoization
import FormulaSheet.Proofs.Evaluation.Versions
import FormulaSheet.Proofs.Document.Reading
import FormulaSheet.Proofs.Document.History
import FormulaSheet.Proofs.Document.Timeline
import FormulaSheet.Proofs.Grammar.Canonical
import FormulaSheet.Proofs.Evaluation.Walk
import FormulaSheet.Proofs.Evaluation.Outcome
import FormulaSheet.Proofs.Evaluation.Exactness
import FormulaSheet.Proofs.Document.CyclicReads
import FormulaSheet.Proofs.Document.StoredFormula
import FormulaSheet.Proofs.Evaluation.Fuel
import FormulaSheet.Proofs.Document.WellFormed
import FormulaSheet.Proofs.Document.Frozen
import FormulaSheet.Proofs.Document.Locality
import FormulaSheet.Proofs.Evaluation.Recomputation
import FormulaSheet.Proofs.Grammar.CellNames
import FormulaSheet.Proofs.Cell.Recreation
import FormulaSheet.Proofs.CommandLine.Output
import FormulaSheet.Proofs.CommandLine.SettingsFiles
import FormulaSheet.Proofs.Grammar.Transcription
import FormulaSheet.Proofs.Grammar.Assembly
import FormulaSheet.Proofs.Grammar.Precedence
import FormulaSheet.Proofs.Evaluation.TrailBalance
import FormulaSheet.Proofs.Evaluation.TrailOrder
import FormulaSheet.Proofs.Token.Splitting
import FormulaSheet.Proofs.Document.Refusal
import FormulaSheet.Proofs.CellRef.WrittenForm
import FormulaSheet.Proofs.CommandLine.Composition
import FormulaSheet.Proofs.Number.Display
import FormulaSheet.Proofs.Grammar.Faults
import FormulaSheet.Proofs.Grammar.Nesting
