import Splice.Include.Context
import Splice.Log.Message
import Splice.Main
import Splice.Proofs.Command.Still
import Splice.Proofs.Config.Accessors
import Splice.Proofs.Config.Chosen
import Splice.Proofs.Config.Coherence
import Splice.Proofs.Config.Failures
import Splice.Proofs.Config.History
import Splice.Proofs.Config.Independence
import Splice.Proofs.Config.Precedence
import Splice.Proofs.Config.Priority
import Splice.Proofs.Config.Segments
import Splice.Proofs.Environment.Identity
import Splice.Proofs.Include.Fetched
import Splice.Proofs.Include.Grammar
import Splice.Proofs.Include.Loop
import Splice.Proofs.Include.Order
import Splice.Proofs.Include.Nested
import Splice.Proofs.Include.Registration
import Splice.Proofs.Include.Unlistable
import Splice.Proofs.Log.Handlers
import Splice.Proofs.Reader.Confinement
import Splice.Proofs.Reader.Directories
import Splice.Proofs.Reader.Expanded
import Splice.Proofs.Reader.Memory
import Splice.Proofs.Reader.PassThrough
import Splice.Proofs.Reader.Provenance
import Splice.Proofs.Reader.Splicing
import Splice.Proofs.Report.Lossless
import Splice.Proofs.Text.BodyLines
import Splice.Proofs.Value.Merging
