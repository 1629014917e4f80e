import RomanInvoice.Main
import RomanInvoice.Proofs.MaximalMunch
import RomanInvoice.Proofs.Total
import RomanInvoice.Proofs.Grammar
import RomanInvoice.Proofs.NormalForm
import RomanInvoice.Proofs.Join
import RomanInvoice.Proofs.Blame
import RomanInvoice.Proofs.Utf8.Reader
import RomanInvoice.Proofs.Lines
import RomanInvoice.Proofs.Spacing
import RomanInvoice.Proofs.Magnitude
import RomanInvoice.Proofs.Greedy
import RomanInvoice.Proofs.Stages
import RomanInvoice.Proofs.Switches
import RomanInvoice.Proofs.Report.Label
import RomanInvoice.Proofs.Report.Place
import RomanInvoice.Proofs.Report.Drawing
import RomanInvoice.Proofs.Message
import RomanInvoice.Proofs.Report.Colours
import RomanInvoice.Proofs.Report.Codes
import RomanInvoice.Proofs.Blank
import RomanInvoice.Proofs.PairPositions
import RomanInvoice.Proofs.Signs
import RomanInvoice.Proofs.Concatenation
import RomanInvoice.Proofs.Denotation
import RomanInvoice.Proofs.Report.Labelled
import RomanInvoice.Proofs.Report.Underline
import RomanInvoice.Proofs.CommandLine
