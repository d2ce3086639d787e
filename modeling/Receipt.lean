import Receipt.Main
import Receipt.Printer.Machine
import Receipt.Layout.Writer
import Receipt.CommandLine.Arguments
import Receipt.Proofs.Composer.Emission
import Receipt.Proofs.WellFormed
import Receipt.Proofs.Composer.FirstFault
import Receipt.Proofs.Printer.Page
import Receipt.Proofs.Printer.ReadBack
import Receipt.Proofs.Printer.CutOnce
import Receipt.Proofs.Printer.Execution
import Receipt.Proofs.Json.ReadBack
import Receipt.Proofs.Layout.RoundTrip
import Receipt.Proofs.Composer.Concatenation
import Receipt.Proofs.Composer.Sources
import Receipt.Proofs.Session
import Receipt.Proofs.Composer.UnknownTypes
import Receipt.Proofs.Preview.Placement
import Receipt.Proofs.Layout.Grammar
import Receipt.Proofs.Layout.Tolerance
import Receipt.Proofs.Composer.Continuation
import Receipt.Proofs.Printer.Overwriting
import Receipt.Proofs.Config.Overrides
import Receipt.Proofs.Config.RoundTrip
import Receipt.Proofs.CommandLine.World
import Receipt.Proofs.Program.Dump
import Receipt.Proofs.CommandLine.Printing
import Receipt.Proofs.Number.Value
import Receipt.Proofs.Number.Nearest
import Receipt.Proofs.Number.Arithmetic
import Receipt.Proofs.Money.Cents
import Receipt.Proofs.Money.Form
import Receipt.Proofs.Money.Accuracy
import Receipt.Proofs.Order.Written
import Receipt.Proofs.Preview.Wrapping
import Receipt.Proofs.Json.Numbers
import Receipt.Proofs.Json.Records
import Receipt.Proofs.Order.Amounts
import Receipt.Proofs.Order.Widths
import Receipt.Proofs.Placeholder.Substitution
import Receipt.Proofs.Placeholder.Completeness
import Receipt.Proofs.Text.Lines
import Receipt.Proofs.Composer.ItemList
import Receipt.Proofs.Placeholder.Locality
import Receipt.Proofs.Composer.Presentation
import Receipt.Proofs.Order.Rows
import Receipt.Proofs.Preview.Conservation
import Receipt.Proofs.Composer.Multiline
import Receipt.Proofs.Money.Sign
import Receipt.Proofs.Order.Labels
import Receipt.Proofs.Printer.Decoding
import Receipt.Proofs.Text.Bytes
import Receipt.Proofs.Vocabulary
import Receipt.Proofs.Composer.Spacers
