import Seyal.Agent.Action.Effects
import Seyal.Agent.Action.SingleUse
import Seyal.Agent.Backend.HostDrain
import Seyal.Agent.Backend.ProcessHost
import Seyal.Agent.Domain.Executions
import Seyal.Agent.Memory.Quota
import Seyal.Agent.Memory.WorkingSet
import Seyal.Agent.Routing.Blend
import Seyal.Agent.Routing.Ranking
import Seyal.Agent.Store.Outputs
import Seyal.Client.BlockCache
import Seyal.Client.ComposerSubmissions
import Seyal.Client.Keybinding.Chords
import Seyal.Client.Moves
import Seyal.Protocol.Display.Assembly
import Seyal.Runtime.Inbound
import Seyal.Runtime.Projection.Mixed
import Seyal.Runtime.ProvisioningRuns
import Seyal.Runtime.Reservations
import Seyal.Runtime.Session.Hold
import Seyal.Terminal.Decoding
import Seyal.Terminal.History.Continuation
import Seyal.Terminal.History.Limits
import Seyal.Terminal.History.Spine
import Seyal.Terminal.Paste
