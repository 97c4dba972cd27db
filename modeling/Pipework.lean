import Pipework.Main
import Pipework.Script.Body
import Pipework.Proofs.Session.Hooks
import Pipework.Proofs.Session.Stranded
import Pipework.Proofs.Network.Counters
import Pipework.Proofs.Network.Health
import Pipework.Proofs.Session.Drain
import Pipework.Proofs.Session.Graceful
import Pipework.Proofs.Session.Exclusive
import Pipework.Proofs.Session.WindDown
import Pipework.Proofs.Session.Arrival
import Pipework.Proofs.Session.Idle
import Pipework.Proofs.Session.Bypass
import Pipework.Proofs.Session.Streaks
import Pipework.Proofs.Session.Pausing
import Pipework.Proofs.Session.Overflow
import Pipework.Proofs.Network.LateEdges
import Pipework.Proofs.Network.HookFailures
import Pipework.Proofs.Session.InFlight
import Pipework.Proofs.Session.EventCount
import Pipework.Proofs.Session.Activation
import Pipework.Proofs.Session.Aftermath
import Pipework.Proofs.Session.LastHolder
import Pipework.Proofs.Body.GroupEnd
import Pipework.Proofs.Network.Settling
import Pipework.Proofs.Body.Results
import Pipework.Proofs.Body.Blocks
import Pipework.Proofs.Body.Polls
import Pipework.Proofs.Queue.Batch
import Pipework.Proofs.Queue.Fifo
import Pipework.Proofs.Checksum
import Pipework.Proofs.Body.Sites
import Pipework.Proofs.Session.NestedHooks
import Pipework.Proofs.Backoff
import Pipework.Proofs.Stint
import Pipework.Proofs.Controller
import Pipework.Proofs.Pool
import Pipework.Proofs.Parameters
import Pipework.Proofs.Body.Endless
import Pipework.Proofs.Network.Uncounted
