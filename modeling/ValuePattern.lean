import ValuePattern.Cursor
import ValuePattern.Main
import ValuePattern.Proofs.Command.Check
import ValuePattern.Proofs.Command.Dispatch
import ValuePattern.Proofs.Decimal.Shortest
import ValuePattern.Proofs.Diagnostic.Caret
import ValuePattern.Proofs.Display.RoundTrip
import ValuePattern.Proofs.Entries.Insertion
import ValuePattern.Proofs.Grammar.Blame
import ValuePattern.Proofs.Grammar.Composition
import ValuePattern.Proofs.Grammar.Layout
import ValuePattern.Proofs.Grammar.Viability
import ValuePattern.Proofs.Node.KeySet
import ValuePattern.Proofs.Node.Loosening
import ValuePattern.Proofs.Node.OfValue
import ValuePattern.Proofs.Node.Reordering
import ValuePattern.Proofs.Numeral.Spelling
import ValuePattern.Proofs.Scan.Bounds
import ValuePattern.Proofs.Table.Course
import ValuePattern.Proofs.Value.Display
import ValuePattern.Proofs.Value.Equality
import ValuePattern.Text.Blank
