import SExpr.Value.Shape
import SExpr.Grammar
import SExpr.Reader.Run
import SExpr.Main
import SExpr.Proofs.Grammar.Inversion
import SExpr.Proofs.Reader.Reach
import SExpr.Proofs.Reader.Completeness
import SExpr.Proofs.Reader.Soundness
import SExpr.Proofs.Reader.Recognition
import SExpr.Proofs.Printer.Written
import SExpr.Proofs.Printer.Tokens
import SExpr.Proofs.Printer.ReadBack
import SExpr.Proofs.Printer.Injective
import SExpr.Proofs.Printer.Joined
import SExpr.Proofs.Reformat.Stability
import SExpr.Proofs.Reader.Failure
import SExpr.Proofs.Text.Walk
import SExpr.Proofs.Reader.Completion
import SExpr.Proofs.Grammar.Unambiguous
import SExpr.Proofs.Grammar.OpenForms
import SExpr.Proofs.Reader.Diagnosis
import SExpr.Proofs.Printer.Verbatim
import SExpr.Proofs.Reader.Limit
import SExpr.Proofs.Reader.Sequence
import SExpr.Proofs.Reader.LineEnds
import SExpr.Proofs.Reader.Lookahead
import SExpr.Proofs.Reader.Image
import SExpr.Proofs.Reader.Margins
import SExpr.Proofs.Printer.Layout
import SExpr.Proofs.Reader.Allowance
import SExpr.Proofs.Printer.Escaping
import SExpr.Proofs.Printer.SelfDelimiting
import SExpr.Proofs.Text.InPlace
import SExpr.Proofs.Reader.Progress
import SExpr.Proofs.CommandLine.Reports
