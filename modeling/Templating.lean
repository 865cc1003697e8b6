import Templating.Config.Reader
import Templating.Path.Printer
import Templating.Placeholder.Mention
import Templating.Placeholder.Printer
import Templating.Render
import Templating.Proofs.Placeholder.Extent
import Templating.Proofs.Placeholder.Cutting
import Templating.Proofs.Placeholder.Spans
import Templating.Proofs.Placeholder.Anatomy
import Templating.Proofs.Placeholder.Nesting
import Templating.Proofs.Placeholder.Appending
import Templating.Proofs.Placeholder.Braces
import Templating.Proofs.Placeholder.KeyList
import Templating.Proofs.Placeholder.DataPath
import Templating.Proofs.Placeholder.Template
import Templating.Proofs.Placeholder.Framing
import Templating.Proofs.Report.Recording
import Templating.Proofs.Resolve.Settling
import Templating.Proofs.Resolve.Answers
import Templating.Proofs.Resolve.Frame
import Templating.Proofs.Resolve.Fallbacks
import Templating.Proofs.Resolve.PassBound
import Templating.Proofs.Resolve.Clean
import Templating.Proofs.Resolve.Containment
import Templating.Proofs.Resolve.Composition
import Templating.Proofs.Resolve.Report
import Templating.Proofs.Resolve.Outage
import Templating.Proofs.Resolve.Foreign
import Templating.Proofs.Resolve.Reach
import Templating.Proofs.Resolve.Session
import Templating.Proofs.Resolve.Counter
import Templating.Proofs.Path.Grammar
import Templating.Proofs.Path.Token
import Templating.Proofs.Path.Soundness
import Templating.Proofs.Path.Completeness
import Templating.Proofs.Path.Concatenation
import Templating.Proofs.Path.Canonical
import Templating.Proofs.Path.Height
import Templating.Proofs.Path.Rendering
import Templating.Proofs.Path.Keys
import Templating.Proofs.Path.RoundTrip
import Templating.Proofs.Path.Viable
import Templating.Proofs.Path.Operands
import Templating.Proofs.Path.Places
import Templating.Proofs.Resolve.Naming
import Templating.Proofs.Placeholder.Readings
import Templating.Proofs.Resolve.Splicing
import Templating.Proofs.Resolve.Chains
import Templating.Proofs.Path.Containers
import Templating.Proofs.Path.Slices
import Templating.Proofs.Resolve.UrlPath
import Templating.Proofs.Placeholder.Index
import Templating.Proofs.Number.Spacing
import Templating.Proofs.Text.Significant
import Templating.Proofs.Value.Positions
import Templating.Proofs.Value.WholeNumbers
