import SvmLight.Main
import SvmLight.Source.Input
import SvmLight.Proofs.Source.Events
import SvmLight.Proofs.Peekable
import SvmLight.Proofs.Decode
import SvmLight.Proofs.Reader.Events
import SvmLight.Proofs.Reader.Operation
import SvmLight.Proofs.Reader.Cursor
import SvmLight.Proofs.Reader.Replay
import SvmLight.Proofs.Reader.Malformed
import SvmLight.Proofs.Line
import SvmLight.Proofs.Source.Files
import SvmLight.Proofs.Reader.Files
import SvmLight.Proofs.Source.Concatenation
import SvmLight.Proofs.Reader.Progress
import SvmLight.Proofs.Reader.Shape
import SvmLight.Proofs.CommandLine.Inputs
import SvmLight.Proofs.Reader.Drained
import SvmLight.Proofs.Summary.Batches
import SvmLight.Proofs.Summary.Harvest
import SvmLight.Proofs.Summary.Transcript
import SvmLight.Proofs.Double.Rounding
import SvmLight.Proofs.Numeral
import SvmLight.Proofs.Double.Literal
import SvmLight.Proofs.Value
import SvmLight.Proofs.RoundTrip
import SvmLight.Proofs.Double.Grammar
import SvmLight.Proofs.Reader.OneByOne
import SvmLight.Proofs.Reader.Batches
import SvmLight.Proofs.Fault
import SvmLight.Proofs.CommandLine.Drained
import SvmLight.Proofs.Reader.Errors
import SvmLight.Proofs.Indicator
import SvmLight.Proofs.Layout
import SvmLight.Proofs.Double.Nearest
import SvmLight.Proofs.Format
import SvmLight.Proofs.Bases
import SvmLight.Proofs.Reader.Room
import SvmLight.Proofs.Reader.Ahead
import SvmLight.Proofs.Settings
import SvmLight.Proofs.CommandLine.Settings
import SvmLight.Proofs.Double.Number
import SvmLight.Proofs.Double.Whole
import SvmLight.Proofs.Split
import SvmLight.Proofs.Shuffle
