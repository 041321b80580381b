import PinnedFile.Attribute.Expansion
import PinnedFile.Configuration
import PinnedFile.Main
import PinnedFile.Shutdown
import PinnedFile.Proofs.CloseLast
import PinnedFile.Proofs.Drains
import PinnedFile.Proofs.Contents
import PinnedFile.Proofs.ReadLoop
import PinnedFile.Proofs.StreamEnd
import PinnedFile.Proofs.Refusals
import PinnedFile.Proofs.Confinement
import PinnedFile.Proofs.Reports
import PinnedFile.Proofs.Panics
import PinnedFile.Proofs.Lifetime
import PinnedFile.Proofs.Copying
import PinnedFile.Proofs.Backpressure
import PinnedFile.Proofs.AfterShutdown
import PinnedFile.Proofs.SingleWorker
import PinnedFile.Proofs.DrainCalls
import PinnedFile.Proofs.Pieces
import PinnedFile.Proofs.PositionalReads
import PinnedFile.Proofs.Registrations
import PinnedFile.Proofs.Pausing
import PinnedFile.Proofs.Permissions
import PinnedFile.Proofs.Placement
import PinnedFile.Proofs.Opening
import PinnedFile.Proofs.Expansion
import PinnedFile.Proofs.OptionList
import PinnedFile.Proofs.Dispatch
