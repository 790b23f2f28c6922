import NfvActor.Foundation.Transition
import NfvActor.Foundation.RingBuffer
import NfvActor.Foundation.CircularList
import NfvActor.Foundation.TrustedLinks
import NfvActor.Foundation.NodePool
import NfvActor.Foundation.IndexPool
import NfvActor.Foundation.ByteMemory
import NfvActor.Reliable.SendQueue
import NfvActor.Reliable.SendQueueInvariant
import NfvActor.Reliable.SendQueueRuns
import NfvActor.Reliable.SequenceWrap
import NfvActor.Reliable.Message
import NfvActor.Reliable.PeerToPeer
import NfvActor.Reliable.Receive
import NfvActor.Reliable.Framing
import NfvActor.Reliable.StateAndPacket
import NfvActor.Reliable.Reassembly
import NfvActor.Reliable.Channel
import NfvActor.Reliable.SendList
import NfvActor.Reliable.SendListInvariant
import NfvActor.Reliable.SendListSafety
import NfvActor.Reliable.Sending
import NfvActor.Reliable.Down
import NfvActor.Reliable.ReceivedPackets
import NfvActor.Actor.NetworkFunction
import NfvActor.Actor.Holdings
import NfvActor.Actor.Runtime
import NfvActor.Actor.FlowKeys
import NfvActor.Actor.Handlers
import NfvActor.Actor.Step
import NfvActor.Actor.Ledger
import NfvActor.Actor.Refinement
import NfvActor.Actor.Custody
import NfvActor.Actor.FlowTables
import NfvActor.Actor.Awaiting
import NfvActor.Actor.ActiveFlows
import NfvActor.Actor.StateSlots
import NfvActor.Actor.Contents
import NfvActor.Actor.Changes
import NfvActor.Actor.Exhaustion
import NfvActor.Actor.Buffers
import NfvActor.Actor.MigrationAccount
import NfvActor.Actor.Firewall
import NfvActor.Actor.Verdicts
import NfvActor.Actor.GiantBatch
import NfvActor.Actor.Routes
import NfvActor.Nf.LoadBalancer
import NfvActor.Nf.ServiceChain
import NfvActor.Nf.SourceNat
import NfvActor.Nf.Recycled
import NfvActor.Nf.Workload
import NfvActor.Utils.RingAllocators
import NfvActor.Utils.FastHashMap
import NfvActor.Utils.FixedArray
import NfvActor.Reliable.Acks
import NfvActor.Migration.Traffic
import NfvActor.Timers.Calls
import NfvActor.Timers.Hooks
import NfvActor.Timers.Recoveries
import NfvActor.Migration.Shipping
import NfvActor.Timers.Identifiers
import NfvActor.Timers.Requests
import NfvActor.Timers.Lists
import NfvActor.Timers.Expiry
import NfvActor.Migration.Network
import NfvActor.Migration.Responses
import NfvActor.Migration.Lookups
import NfvActor.Migration.RouteRequests
import NfvActor.Migration.Rollback
import NfvActor.Replication.OutputCommit
import NfvActor.Replication.Codec
import NfvActor.Control.Wire
import NfvActor.Control.Rpc
import NfvActor.Control.Negotiation
import NfvActor.Control.AddressLists
import NfvActor.Control.Plane
import NfvActor.Control.Roles
import NfvActor.Control.LostReplies
import NfvActor.Control.Worker
import NfvActor.Control.Links
import NfvActor.Control.ReplicaLists
import NfvActor.Control.References
import NfvActor.Control.FlowEvents
import NfvActor.Control.Hosts
