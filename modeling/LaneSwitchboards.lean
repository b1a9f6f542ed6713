import LaneSwitchboards.Lib.Transition
import LaneSwitchboards.Lib.Chan
import LaneSwitchboards.Monitor
import LaneSwitchboards.Actor.Task
import LaneSwitchboards.Actor.Runtime
import LaneSwitchboards.Actor.Effects
import LaneSwitchboards.Actor.Stages
import LaneSwitchboards.Actor.Notify
import LaneSwitchboards.Actor.Link
import LaneSwitchboards.Supervisor.Policy
import LaneSwitchboards.Supervisor.System
import LaneSwitchboards.Supervisor.Instances
import LaneSwitchboards.Supervisor.Stale
import LaneSwitchboards.Supervisor.Replacement
import LaneSwitchboards.Mesh.Snapshot
import LaneSwitchboards.Remote.Node
import LaneSwitchboards.Remote.Order
import LaneSwitchboards.Remote.Transit
import LaneSwitchboards.Remote.Writer
import LaneSwitchboards.Remote.Delivery
import LaneSwitchboards.Cluster.Placement
import LaneSwitchboards.Cluster.Preference
import LaneSwitchboards.Cluster.Collision
import LaneSwitchboards.Cluster.Members
import LaneSwitchboards.Mesh.Directory
import LaneSwitchboards.Mesh.Convergence
import LaneSwitchboards.Mesh.Control
import LaneSwitchboards.Mesh.ControlJson
import LaneSwitchboards.Mesh.Listing
import LaneSwitchboards.Lib.Tally
import LaneSwitchboards.Actor.Moves
import LaneSwitchboards.Actor.Wiring
import LaneSwitchboards.Actor.Hearing
import LaneSwitchboards.Actor.Handshake
import LaneSwitchboards.Actor.Cascade
import LaneSwitchboards.Lib.WaitGraph
import LaneSwitchboards.Actor.Deadlock
import LaneSwitchboards.Supervisor.Shutdown
import LaneSwitchboards.Lib.Window
import LaneSwitchboards.Supervisor.Intensity
import LaneSwitchboards.Supervisor.Abandon
import LaneSwitchboards.Supervisor.FailedStart
import LaneSwitchboards.Mesh.Lease
import LaneSwitchboards.Mesh.Renewal
import LaneSwitchboards.Lib.Framing
import LaneSwitchboards.Wire
import LaneSwitchboards.Mesh.ControlStream
import LaneSwitchboards.Mesh.InTurn
import LaneSwitchboards.Mesh.Idle
import LaneSwitchboards.Mesh.ByteRuns
import LaneSwitchboards.Cluster.Lookup
import LaneSwitchboards.Cluster.References
import LaneSwitchboards.Mesh.Refresh
import LaneSwitchboards.Mesh.Atomic
import LaneSwitchboards.Lib.Sorting
import LaneSwitchboards.Remote.WriteLoop
import LaneSwitchboards.Supervisor.Scope
import LaneSwitchboards.Actor.History
import LaneSwitchboards.Actor.Lifecycle
import LaneSwitchboards.Actor.Monitors
import LaneSwitchboards.Actor.Cleanup
import LaneSwitchboards.Supervisor.Stop
import LaneSwitchboards.Cluster.Address
import LaneSwitchboards.Cluster.RoundRobin
import LaneSwitchboards.Monitor.InFlight
import LaneSwitchboards.Limits
import LaneSwitchboards.Monitor.Longest
import LaneSwitchboards.Lib.Relay
import LaneSwitchboards.Remote.Served
import LaneSwitchboards.Remote.EndToEnd
import LaneSwitchboards.Remote.Sequence
import LaneSwitchboards.Remote.ExactlyOnce
import LaneSwitchboards.Remote.Fates
import LaneSwitchboards.Cluster.Traffic
import LaneSwitchboards.Mesh.Effects
import LaneSwitchboards.Mesh.Router
import LaneSwitchboards.Actor.Statistics
import LaneSwitchboards.Actor.Endings
import LaneSwitchboards.Actor.RootCause
import LaneSwitchboards.Mesh.Traffic
