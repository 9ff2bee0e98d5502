import VectorPath.Command.Construct
import VectorPath.Error.Construct
import VectorPath.Main
import VectorPath.Value.Numeral
import VectorPath.Proofs.Outcome
import VectorPath.Proofs.Number.Rounding
import VectorPath.Proofs.Number.Shortest
import VectorPath.Proofs.Number.Numeral
import VectorPath.Proofs.Number.Equality
import VectorPath.Proofs.Number.Written
import VectorPath.Proofs.Text.Utf8
import VectorPath.Proofs.Path.Tokens
import VectorPath.Proofs.Path.Reading
import VectorPath.Proofs.Path.Grammar
import VectorPath.Proofs.Path.Failure
import VectorPath.Proofs.Path.Letters
import VectorPath.Proofs.Command.Decoding
import VectorPath.Proofs.Command.Refusal
import VectorPath.Proofs.Command.RoundTrip
import VectorPath.Proofs.Json.Nesting
import VectorPath.Proofs.Json.Scanning
import VectorPath.Proofs.Document.Writing
import VectorPath.Proofs.Document.Items
import VectorPath.Proofs.Document.Loading
import VectorPath.Proofs.Processor.Calls
import VectorPath.Proofs.Processor.Ledger
import VectorPath.Proofs.Logging.Emission
import VectorPath.Proofs.Logging.Reconfiguration
import VectorPath.Proofs.Json.Numbers
import VectorPath.Proofs.Json.Spelling
import VectorPath.Proofs.Document.RoundTrip
import VectorPath.Proofs.Json.Newlines
import VectorPath.Proofs.Document.Sources
import VectorPath.Proofs.Path.Rounding
import VectorPath.Proofs.Path.Composition
import VectorPath.Proofs.Path.Case
import VectorPath.Proofs.Files.Entries
import VectorPath.Proofs.Files.Growth
import VectorPath.Proofs.Processor.Tokens
import VectorPath.Proofs.Processor.History
import VectorPath.Proofs.Logging.Lines
import VectorPath.Proofs.Processor.Log
import VectorPath.Proofs.Logging.Replacement
import VectorPath.Proofs.CommandLine.Request
import VectorPath.Proofs.CommandLine.Ending
import VectorPath.Proofs.Number.Bounded
import VectorPath.Proofs.Drawing.Coordinates
import VectorPath.Proofs.Drawing.Contours
import VectorPath.Proofs.Font.Strokes
import VectorPath.Proofs.Font.Outlines
import VectorPath.Proofs.Drawing.Mishaps
import VectorPath.Proofs.Font.Lifecycle
import VectorPath.Proofs.Number.Nearest
import VectorPath.Proofs.Number.Grids
import VectorPath.Proofs.Number.Canonical
import VectorPath.Proofs.Path.Precision
import VectorPath.Proofs.Drawing.Splines
import VectorPath.Proofs.Drawing.Replay
import VectorPath.Proofs.Number.Halves
import VectorPath.Proofs.Font.Tracing
import VectorPath.Proofs.Drawing.Components
import VectorPath.Proofs.Command.Construction
import VectorPath.Value.Hash
import VectorPath.Proofs.Value.Identity
import VectorPath.Proofs.Json.Escaping
import VectorPath.Proofs.Logging.Reading
import VectorPath.Proofs.Files.Naming
import VectorPath.Proofs.Text.Grouping
import VectorPath.Proofs.Text.Integer
import VectorPath.Proofs.Settings
import VectorPath.Proofs.Logging.Handlers
import VectorPath.Proofs.Drawing.Motions
import VectorPath.Proofs.Font.Laws
