import Choreography.Desk.Listening
import Choreography.Http.Server
import Choreography.Journal.Message
import Choreography.Json.Tagged
import Choreography.Rule.Definition
import Choreography.Simulation.Plan
import Choreography.Error.Calendar
import Choreography.Error.Description
import Choreography.Proofs.Log.Holdings
import Choreography.Proofs.Matching.InOrder
import Choreography.Proofs.System.Replay
import Choreography.Proofs.System.Eviction
import Choreography.Proofs.System.Recall
import Choreography.Proofs.System.Depths
import Choreography.Proofs.System.Levels
import Choreography.Proofs.System.Marks
import Choreography.Proofs.System.Isolation
import Choreography.Proofs.System.Containment
import Choreography.Proofs.System.Reception
import Choreography.Proofs.System.Termination
import Choreography.Proofs.System.Cancellation
import Choreography.Proofs.System.Lobby
import Choreography.Proofs.Enrichment.Composition
import Choreography.Proofs.Enrichment.Refinement
import Choreography.Proofs.Passthrough
import Choreography.Proofs.System.Service
import Choreography.Proofs.Audit.Once
import Choreography.Proofs.Rule.Listening
import Choreography.Proofs.Audit.Calls
import Choreography.Proofs.Await
import Choreography.Proofs.Dispatch.Undisturbed
import Choreography.Proofs.Unification.Exactness
import Choreography.Proofs.Frame.Confluence
