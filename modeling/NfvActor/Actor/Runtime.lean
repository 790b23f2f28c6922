import Mathlib.Tactic
import NfvActor.Foundation.CircularList
import NfvActor.Actor.NetworkFunction

/-!
# The state of a runtime

A runtime is one worker thread: a pool of flow actors, the tables that find them, the intrusive lists of active
and of replica flows, counters, and the places a packet can end up in. Faults of the source (a null pointer, a
failed assertion, a freed object) are `none`. Peers belong to the reliable layer; what `reliables_.find`, a
connection check or a round-robin list answers is an input of the step that asks.
-/

namespace NfvActor.Actor

open NfvActor.Foundation
open NfvActor.Reliable (Packet littleEndian)
open Function

/-- `current_state_`; it is zero before an actor is initialised. -/
inductive FlowState
  | uninitialised
  | normalProcessing
  | migrationSource
  | migrationTarget
  | failureProcessing
  | afterRouteChange
deriving DecidableEq, Repr

/-- The values of the state constants. -/
def FlowState.code : FlowState → ℕ
  | uninitialised => 0
  | normalProcessing => 1
  | migrationSource => 2
  | migrationTarget => 3
  | failureProcessing => 4
  | afterRouteChange => 6

/-- `replication_state_`. -/
inductive ReplicationState
  | noReplica
  | haveReplica
  | isReplica
deriving DecidableEq, Repr

/-- The messages that a timer of a flow actor can trigger. -/
inductive TimerMessage
  | checkIdle
  | startMigrationTimeout
  | changeVswitchRouteTimeout
  | migrateFlowStateTimeout
  | replicaRecoverTimeout
deriving DecidableEq, Repr

/-- `actor_timer`, armed while `requestMsgId` is not `invalid_message_id`. -/
structure ActorTimer where
  requestMsgId : UInt32
  msgType : TimerMessage
deriving DecidableEq, Repr

def invalidMessageId : UInt32 := 0
def idleMessageId : UInt32 := 1
def messageIdStart : UInt32 := 2

def invalidFlowActorId : UInt32 := 0
def coordinatorActorId : UInt32 := 1
def flowActorIdStart : UInt32 := 2

def numFlowActors : ℕ := 1024 * 1024

def ActorTimer.invalidate (timer : ActorTimer) : ActorTimer :=
  { timer with requestMsgId := invalidMessageId }

/-- The sixteen bytes of a `flow_key_t`. -/
abbrev FlowKey := List UInt8

/-- `flow_ether_header`; addresses are six bytes. -/
structure EtherHeader where
  destRtid : UInt32
  dAddr : UInt64
  sAddr : UInt64
deriving DecidableEq, Repr

namespace EtherHeader

/-- `init` keeps the low six bytes of the addresses. -/
def init (destRtid : UInt32) (destMac srcMac : UInt64) : EtherHeader where
  destRtid := destRtid
  dAddr := destMac &&& 0xFFFFFFFFFFFF
  sAddr := srcMac &&& 0xFFFFFFFFFFFF

/-- The bytes of `ethh`. -/
def bytes (header : EtherHeader) : List UInt8 :=
  littleEndian 6 header.dAddr.toNat ++ littleEndian 6 header.sAddr.toNat ++ [0x08, 0x00]

end EtherHeader

/-- The copy of an ethernet header over the start of a packet. -/
def writeEther (pkt : Packet) (header : EtherHeader) : Packet where
  dataOff := pkt.dataOff
  bytes := header.bytes ++ pkt.bytes.drop header.bytes.length
  dataLen := pkt.dataLen
  fits := by
    have hfits := pkt.fits
    rw [List.length_append, List.length_drop]
    omega

/-- The flow key: protocol, addresses, ports, zero padding. -/
def flowKeyOf (pkt : Packet) : FlowKey :=
  littleEndian 1 (pkt.read 23 1) ++ littleEndian 8 (pkt.read 26 8) ++
    littleEndian 4 (pkt.read 34 4) ++ [0, 0, 0]

/-- The source address of a packet. -/
def srcMac (pkt : Packet) : UInt64 := UInt64.ofNat (pkt.read 6 6)

/-- Which of its three timers. -/
inductive TimerKind
  | idle
  | migration
  | replication
deriving DecidableEq, Repr

/-- `flow_actor`. `chain` lists `nfs_` and `fs_`, `buffer` the cells from `buffer_head_` on, and `r` is the
runtime id of the peer behind `r_`. -/
structure FlowActor where
  actorId : UInt32
  pktCounter : UInt64
  sampleCounter : UInt64
  flowKey : FlowKey
  coordinatorSet : Bool
  inputHeader : EtherHeader
  outputHeader : EtherHeader
  chain : List ChainSlot
  idleTimer : ActorTimer
  migrationTimer : ActorTimer
  replicationTimer : ActorTimer
  migrationTargetActorId : UInt32
  currentState : FlowState
  buffer : List (ℕ × Packet)
  replicationState : ReplicationState
  r : Option UInt32

namespace FlowActor

def blankTimer : ActorTimer := ⟨invalidMessageId, .checkIdle⟩

def blankHeader : EtherHeader := ⟨0, 0, 0⟩

/-- A flow actor in the zeroed array of the allocator. -/
def blank : FlowActor where
  actorId := invalidFlowActorId
  pktCounter := 0
  sampleCounter := 0
  flowKey := List.replicate 16 0
  coordinatorSet := false
  inputHeader := blankHeader
  outputHeader := blankHeader
  chain := []
  idleTimer := blankTimer
  migrationTimer := blankTimer
  replicationTimer := blankTimer
  migrationTargetActorId := 0
  currentState := .uninitialised
  buffer := []
  replicationState := .noReplica
  r := none

def timer (actor : FlowActor) : TimerKind → ActorTimer
  | .idle => actor.idleTimer
  | .migration => actor.migrationTimer
  | .replication => actor.replicationTimer

def setTimer (actor : FlowActor) (kind : TimerKind) (timer : ActorTimer) : FlowActor :=
  match kind with
  | .idle => { actor with idleTimer := timer }
  | .migration => { actor with migrationTimer := timer }
  | .replication => { actor with replicationTimer := timer }

end FlowActor

/-- The payloads of reliable messages, flow states by chain position. -/
inductive MessageBody (σ : Type)
  | ping
  | pong
  | createMigrationTargetActor (inputHeader outputHeader : EtherHeader) (flowKey : FlowKey)
  | changeVswitchRoute (flowKey : FlowKey) (newOutputRtId : UInt32)
  | replication (inputHeader outputHeader : EtherHeader) (flowKey : FlowKey) (states : ℕ → σ)
      (pkt : Packet)
  | replicaRecover (flowKey : FlowKey) (newOutputRtId : UInt32)
  | startMigrationResponse (requestMsgId migrationTargetActorId : UInt32)
  | changeVswitchRouteResponse (requestMsgId changeRouteSucceed : UInt32)
  | migrateFlowState (states : ℕ → σ)
  | migrateFlowStateResponse (requestMsgId : UInt32)
  | replicaRecoverResponse (requestMsgId recoverSucceed : UInt32)

/-- A message with the fields of its `reliable_message_header`. -/
structure Message (σ : Type) where
  sendActorId : UInt32
  recvActorId : UInt32
  msgId : UInt32
  body : MessageBody σ

/-- A `reliable_p2p` as the actors see it. -/
structure PeerView where
  connectionUp : Bool
  inputPortMac : UInt64

/-- What the rest of the program answers in a step. `sendOk` and `secondSendOk`: do its two sends find room;
`replicaConnection` is `r_->check_connection_status()`, or `none` for a dangling pointer. -/
structure Environment (σ : Type) where
  reliables : UInt32 → Option PeerView
  macToReliables : UInt64 → Option (Option UInt32)
  replicaItem : Option UInt32
  outputItem : Option (UInt64 × UInt32)
  replicaConnection : Option Bool
  sendOk : Bool
  secondSendOk : Bool
  staleStates : ℕ → σ

/-! ## The runtime -/

/-- The nodes of the flow lists: the head of `active_flows_rrlist_`, the heads allocated for
`replica_flow_lists_`, the `list_item_` of every actor. -/
inductive ListNode
  | activeFlows
  | replicaFlows (head : ℕ)
  | actor (ptr : ℕ)
deriving DecidableEq, Repr

/-- The counters of `coordinator` that belong to migration. -/
structure MigrationStats where
  qouta : UInt64
  targetRtId : UInt32
  outgoing : UInt64
  iteration : UInt64
  total : UInt64
  successful : UInt64
  failed : UInt64
  null : UInt64
  sourceLoss : UInt64
  targetLoss : UInt64
  targetBufferSize : UInt64
  migratedInFlowNum : UInt64
deriving DecidableEq, Repr

/-- The counters of `coordinator` that belong to recovery. -/
structure RecoveryStats where
  storageRtid : UInt32
  outGoing : UInt64
  iteration : UInt64
  successful : UInt64
  unsuccessful : UInt64
deriving DecidableEq, Repr

/-- The command-line configuration. -/
structure RuntimeConfig where
  runtimeId : UInt32
  inputPortMac : UInt64
  outputPortMac : UInt64
  defaultOutputMac : UInt64

/-- A `coordinator` with everything it owns. `relinked` and `outbox` only record: whether a hooked item was
added to a list, and the messages sent. -/
structure Runtime (σ τ : Type) where
  config : RuntimeConfig
  allocator : RingBuffer ℕ
  nextFlowActorId : UInt32
  actors : ℕ → FlowActor
  htable : FlowKey → Option ℕ
  actoridHtable : UInt32 → Option ℕ
  serviceChain : List ℕ
  nfs : NfTable σ τ
  links : Links ListNode
  relinked : Bool
  replicaFlowLists : UInt32 → Option ℕ
  nextHead : ℕ
  freedHeads : List ℕ
  migration : MigrationStats
  recovery : RecoveryStats
  nextMsgId : UInt32
  collectiveBuffer : RingBuffer ℕ
  gpCollector : List Packet
  ecSchedulerBatch : List Packet
  gb : List (Packet × UInt16)
  outbox : List (UInt32 × Message σ)

namespace Runtime

variable {σ τ : Type}

/-- `deadend_flow_actor_` is the first actor that is handed out. -/
def deadendFlowActor : ℕ := 0

/-- Cells of `collective_buffer_`, which is also the room in `gb_`. -/
def collectiveBufferSize : ℕ := 50 * Reliable.kMaxBurst

/-- The allocator once the deadend actor has been taken from it. -/
def initialAllocator : RingBuffer ℕ where
  headPos := 1
  tailPos := 0
  curSize := numFlowActors - 1
  maxSize := numFlowActors
  ringBuf := id
  head_lt := by decide
  size_le := by decide
  tail_eq := by decide

/-- The runtime after the constructor of `coordinator`. -/
def boot (config : RuntimeConfig) (serviceChain : List ℕ) (code : ℕ → NetworkFunction σ τ) (zero : ℕ → σ)
    (sharedState : ℕ → τ) : Runtime σ τ where
  config := config
  allocator := initialAllocator
  nextFlowActorId := flowActorIdStart + 1
  actors := update (fun _ ↦ .blank) deadendFlowActor { FlowActor.blank with
    actorId := flowActorIdStart }
  htable := fun _ ↦ none
  actoridHtable := fun _ ↦ none
  serviceChain := serviceChain
  nfs := fun nf ↦ .initRing (code nf) (zero nf) (sharedState nf) numFlowActors (by decide)
  links := .detached
  relinked := false
  replicaFlowLists := fun _ ↦ none
  nextHead := 0
  freedHeads := []
  migration := ⟨0, 0, 0, 0, 0, 0, 0, 0, 0, 0, 0, 0⟩
  recovery := ⟨0, 0, 0, 0, 0⟩
  nextMsgId := messageIdStart
  collectiveBuffer := .filled collectiveBufferSize (by decide) id
  gpCollector := []
  ecSchedulerBatch := []
  gb := []
  outbox := []

variable (rt : Runtime σ τ)

/-- Changes one flow actor. -/
def modifyActor (ptr : ℕ) (change : FlowActor → FlowActor) : Runtime σ τ :=
  { rt with actors := update rt.actors ptr (change (rt.actors ptr)) }

/-- `flow_actor_allocator::allocate`; `none` stands for the null pointer. -/
def allocate : Option (ℕ × Runtime σ τ) :=
  rt.allocator.pop.map fun popped ↦
    (popped.1,
      { rt with allocator := popped.2, nextFlowActorId := rt.nextFlowActorId + 1 }.modifyActor popped.1
        fun actor ↦ { actor with actorId := rt.nextFlowActorId })

/-- `flow_actor_allocator::deallocate`. -/
def deallocate (ptr : ℕ) : Runtime σ τ :=
  { rt with allocator := (rt.allocator.push ptr).2 }.modifyActor ptr
    fun actor ↦ { actor with actorId := invalidFlowActorId }

/-- The two `Set` calls that enter an actor under its flow key and its id. -/
def bind (key : FlowKey) (ptr : ℕ) : Runtime σ τ :=
  { rt with
    htable := update rt.htable key (some ptr)
    actoridHtable := update rt.actoridHtable (rt.actors ptr).actorId (some ptr) }

/-- `cdlist_add_tail` of an actor. -/
def addTail (rt : Runtime σ τ) (head : ListNode) (ptr : ℕ) : Runtime σ τ :=
  { rt with
    links := rt.links.addTail head (.actor ptr)
    relinked := rt.relinked || rt.links.next (.actor ptr) != .actor ptr }

/-- Whether a node is a list head whose memory has been freed. -/
def isFreed : ListNode → Bool
  | .replicaFlows head => rt.freedHeads.contains head
  | _ => false

/-- `cdlist_del` of an actor; it writes to both neighbours. -/
def unlink (ptr : ℕ) : Option (Runtime σ τ) :=
  if rt.isFreed (rt.links.next (.actor ptr)) || rt.isFreed (rt.links.prev (.actor ptr)) then none
  else some { rt with links := rt.links.del (.actor ptr) }

/-- The actor at the head of a list, `some none` when the list is empty. -/
def peekHead (head : ListNode) : Option (Option ℕ) :=
  match rt.links.peekFirst head with
  | none => some none
  | some (.actor ptr) => some (some ptr)
  | some _ => none

/-- `add_timer`, which asserts that the timer is not armed. -/
def addTimer (ptr : ℕ) (kind : TimerKind) (requestMsgId : UInt32)
    (msgType : TimerMessage) : Option (Runtime σ τ) :=
  if ((rt.actors ptr).timer kind).requestMsgId = invalidMessageId then
    some (rt.modifyActor ptr fun actor ↦ actor.setTimer kind ⟨requestMsgId, msgType⟩)
  else
    none

/-- `invalidate` on one of the timers of an actor. -/
def invalidate (rt : Runtime σ τ) (ptr : ℕ) (kind : TimerKind) : Runtime σ τ :=
  rt.modifyActor ptr fun actor ↦ actor.setTimer kind (actor.timer kind).invalidate

/-- Allocates a message id and sends a message to a peer that has to exist. The flag is that of `reliable_send`.
-/
def sendMessage (env : Environment σ) (sendOk : Bool) (destRtid sendActorId
    recvActorId : UInt32) (body : MessageBody σ) : Option (Bool × Runtime σ τ) :=
  (env.reliables destRtid).map fun peer ↦
    let rt' := { rt with nextMsgId := rt.nextMsgId + 1 }
    if peer.connectionUp && sendOk then
      (true, { rt' with outbox :=
        rt.outbox ++ [(destRtid, ⟨sendActorId, recvActorId, rt.nextMsgId, body⟩)] })
    else (false, rt')

/-- `gp_collector_.collect`. -/
def collect (pkt : Packet) : Runtime σ τ :=
  { rt with gpCollector := rt.gpCollector ++ [pkt] }

/-- `ec_scheduler_batch_.add`. -/
def emit (pkt : Packet) : Option (Runtime σ τ) :=
  (Reliable.batchAdd rt.ecSchedulerBatch pkt).map fun batch ↦ { rt with ecSchedulerBatch := batch }

/-- `gb_.add_pkt_set_gate`. -/
def addPktSetGate (pkt : Packet) (gate : UInt16) : Option (Runtime σ τ) :=
  if rt.gb.length < collectiveBufferSize then some { rt with gb := rt.gb ++ [(pkt, gate)] } else none

end Runtime

end NfvActor.Actor
