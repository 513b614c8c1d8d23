import Mockup.Main
import Mockup.Extraction
import Mockup.Service
import Mockup.Proofs.Text.Occurrence
import Mockup.Proofs.Text.Scan
import Mockup.Proofs.Text.Trim
import Mockup.Proofs.Text.Piece
import Mockup.Proofs.Text.Leftmost
import Mockup.Proofs.Extraction.Block
import Mockup.Proofs.Extraction.Chain
import Mockup.Proofs.Extraction.Page
import Mockup.Proofs.Extraction.Rewrapping
import Mockup.Proofs.Text.LineEnding
import Mockup.Proofs.Extraction.LineEnding
import Mockup.Proofs.Model.Retry
import Mockup.Proofs.Extraction.Outline
import Mockup.Proofs.Extraction.Agreement
import Mockup.Proofs.Extraction.Provenance
import Mockup.Proofs.Extraction.Header
import Mockup.Proofs.Extraction.BlockScan
import Mockup.Proofs.Extraction.Section
import Mockup.Proofs.Config.Decoding
import Mockup.Proofs.Config.Allowance
import Mockup.Proofs.Server.Building
import Mockup.Proofs.Server.Sharing
import Mockup.Proofs.Json.Reading
import Mockup.Proofs.Disk
import Mockup.Proofs.Model.Call
import Mockup.Proofs.Model.Outcome
import Mockup.Proofs.Server.Upload
import Mockup.Proofs.Server.Job
import Mockup.Proofs.Server.Generation
import Mockup.Proofs.Server.Interleaving
import Mockup.Proofs.Server.Cancellation
import Mockup.Proofs.Document
import Mockup.Proofs.Toml.Table
import Mockup.Proofs.Toml.Distinct
import Mockup.Proofs.Toml.Sight
import Mockup.Proofs.Toml.Saying
import Mockup.Proofs.Config.Layout
import Mockup.Proofs.Config.Sections
import Mockup.Proofs.Config.Alike
import Mockup.Proofs.Config.Overriding
import Mockup.Proofs.Extraction.Cleaning
import Mockup.Proofs.Extraction.Deletion
import Mockup.Proofs.Extraction.Suggestion
import Mockup.Proofs.Text.Continuation
import Mockup.Proofs.Extraction.Continuation
import Mockup.Proofs.Model.Completion
import Mockup.Proofs.Server.Filename
import Mockup.Proofs.Text.Base64
import Mockup.Proofs.Number.Rounding
import Mockup.Proofs.Json.Range
import Mockup.Proofs.Model.Query
import Mockup.Proofs.Text.Utf8
import Mockup.Proofs.Http.Multipart
import Mockup.Proofs.Http.Attribute
import Mockup.Proofs.Http.Quotation
import Mockup.Proofs.Http.Disposition
import Mockup.Proofs.Http.MediaType
import Mockup.Proofs.Server.Form
import Mockup.Proofs.Text.Words
import Mockup.Proofs.Text.Composition
import Mockup.Proofs.Network.Punycode
import Mockup.Proofs.Network.Domain
import Mockup.Proofs.Network.Address
import Mockup.Proofs.Network.Percent
import Mockup.Proofs.Network.Host
import Mockup.Proofs.Network.Path
import Mockup.Proofs.Network.Url
import Mockup.Proofs.Span.Sum
import Mockup.Proofs.Model.Endpoint
import Mockup.Proofs.Service
import Mockup.Proofs.Number.Value
import Mockup.Proofs.Number.Shortest
import Mockup.Proofs.Json.Value
import Mockup.Proofs.Config.Validation
import Mockup.Proofs.Server.Patience
import Mockup.Proofs.Server.Guarantee
import Mockup.Proofs.Server.Detail
import Mockup.Proofs.CommandLine.Precedence
import Mockup.Proofs.Service.Startup
