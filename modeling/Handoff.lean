import Handoff.Bench
import Handoff.Cancellation
import Handoff.Proofs.Agreement.Wait
import Handoff.Proofs.Cancellation.Kinship
import Handoff.Proofs.Chain.Associativity
import Handoff.Proofs.Chain.Deferral
import Handoff.Proofs.Chain.Stopping
import Handoff.Proofs.Connecting.Failure
import Handoff.Proofs.Connecting.Refusal
import Handoff.Proofs.Containing
import Handoff.Proofs.Exposure.Once
import Handoff.Proofs.Holding.Representation
import Handoff.Proofs.Leafwise
import Handoff.Proofs.Lifetime.Destruction
import Handoff.Proofs.Panic.Boundary
import Handoff.Proofs.Prompt.Promises
import Handoff.Proofs.Prompt.Waking
import Handoff.Proofs.Queue.Draining
import Handoff.Proofs.Reporting.Readable
import Handoff.Proofs.Restarting
import Handoff.Proofs.Separation.Independence
import Handoff.Proofs.Wiring.Tokens
import Handoff.Proofs.Wiring.Walks
import Handoff.Slot
