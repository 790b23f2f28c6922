import Mathlib.Tactic
import NfvActor.Actor.Ledger

/-!
# The outcomes of a step

The steps are inverted once and for all: `Outcome` lists the ways in which a step can succeed, with their
conditions and with the next runtime written by total operations, and `Runtime.step_outcome` says that there are
no others.
-/

namespace NfvActor.Actor

open NfvActor.Foundation
open NfvActor.Reliable (Packet)
open Function
open Option (bind_eq_some_iff map_eq_some_iff)

/-- A request to a peer, and the message that its timer triggers if no answer comes. -/
structure Request (σ : Type) where
  sendActorId : UInt32
  dest : UInt32
  recvActorId : UInt32
  body : MessageBody σ
  msgType : TimerMessage

/-- A new flow: its actor, its list, its key and the fields of its actor. -/
structure Opening where
  ptr : ℕ
  ring : RingBuffer ℕ
  head : ListNode
  key : FlowKey
  state : FlowState
  replication : ReplicationState
  r : Option UInt32
  inputHeader : EtherHeader
  outputHeader : EtherHeader
  initialise : Bool

/-- The states in which an actor runs packets through its chain. -/
def FlowState.processes : FlowState → Bool
  | migrationTarget => false
  | afterRouteChange => false
  | _ => true

namespace Runtime

variable {σ τ : Type}

def enter (rt : Runtime σ τ) (ptr : ℕ) (state : FlowState) : Runtime σ τ :=
  rt.modifyActor ptr fun actor ↦ { actor with currentState := state }

/-- A message id is allocated, and a message with it is sent if there is room. -/
def post (rt : Runtime σ τ) (sent : Bool) (dest sendActorId recvActorId : UInt32) (body : MessageBody σ) :
    Runtime σ τ :=
  { rt with
    nextMsgId := rt.nextMsgId + 1
    outbox := if sent then rt.outbox ++ [(dest, ⟨sendActorId, recvActorId, rt.nextMsgId, body⟩)]
      else rt.outbox }

/-- A request is sent and its timer armed. -/
def ask (rt : Runtime σ τ) (sent : Bool) (ptr : ℕ) (request : Request σ) : Runtime σ τ :=
  (rt.post sent request.dest request.sendActorId request.recvActorId request.body).modifyActor ptr
    fun actor ↦ actor.setTimer request.msgType.kind ⟨rt.nextMsgId, request.msgType⟩

/-- The actor of a new flow. -/
def openedActor (rt : Runtime σ τ) (opening : Opening) : FlowActor :=
  { rt.actors opening.ptr with
    actorId := rt.nextFlowActorId
    currentState := opening.state
    replicationState := opening.replication
    r := opening.r
    flowKey := opening.key
    coordinatorSet := true
    pktCounter := 0
    sampleCounter := 0
    inputHeader := opening.inputHeader
    outputHeader := opening.outputHeader
    chain := (NfTable.allocateChain opening.initialise rt.serviceChain [] rt.nfs).1
    buffer := []
    idleTimer := ⟨idleMessageId, .checkIdle⟩ }

def opened (rt : Runtime σ τ) (opening : Opening) : Runtime σ τ :=
  let rt' := { rt with
    allocator := opening.ring
    nextFlowActorId := rt.nextFlowActorId + 1
    nfs := (NfTable.allocateChain opening.initialise rt.serviceChain [] rt.nfs).2
  }.modifyActor opening.ptr fun _ ↦ rt.openedActor opening
  (rt'.addTail opening.head opening.ptr).bind opening.key opening.ptr

def removed (rt : Runtime σ τ) (ptr : ℕ) : Runtime σ τ :=
  let rt' := { rt with
    htable := update rt.htable (rt.actors ptr).flowKey none
    actoridHtable := update rt.actoridHtable (rt.actors ptr).actorId none }
  if ptr = deadendFlowActor then rt'
  else
    { ((rt'.invalidate ptr .idle).invalidate ptr .migration).invalidate ptr .replication with
      links := rt.links.del (.actor ptr) }.deallocate ptr

/-- An idle actor is about to leave: its timer is off and its buffer empty. -/
def drained (rt : Runtime σ τ) (ptr : ℕ) : Runtime σ τ :=
  if (rt.actors ptr).currentState = .migrationTarget then (rt.invalidate ptr .idle).discardBuffer ptr
  else rt.invalidate ptr .idle

/-- An actor that has been migrated is about to leave. -/
def settled (rt : Runtime σ τ) (ptr : ℕ) : Runtime σ τ :=
  { (rt.invalidate ptr .migration).enter ptr .normalProcessing with
    migration := { rt.migration with
      outgoing := rt.migration.outgoing - 1
      successful := rt.migration.successful + 1 }
    nfs := rt.nfs.forChain (fun nf slot ↦ nf.nfFlowLeave slot .migrateOut) (rt.actors ptr).chain
  }.invalidate ptr .idle

/-- The runtime in which an idle actor has left its flow states. -/
def left (rt : Runtime σ τ) (ptr : ℕ) : Runtime σ τ :=
  { rt.drained ptr with nfs := leaveChain rt.nfs (rt.actors ptr).chain }

/-- A replica takes its flow over. -/
def recovered (rt : Runtime σ τ) (ptr : ℕ) : Runtime σ τ :=
  { (rt.invalidate ptr .replication).activateReplica ptr with
    recovery := { rt.recovery with
      successful := rt.recovery.successful + 1
      outGoing := rt.recovery.outGoing - 1 }
    nfs := rt.nfs.forChain (fun nf slot ↦ nf.nfFlowArrive slot .recoverOn) (rt.actors ptr).chain }

/-- A replica becomes active though nobody has answered. -/
def notRecovered (rt : Runtime σ τ) (ptr : ℕ) : Runtime σ τ :=
  { (rt.invalidate ptr .replication).activateReplica ptr with
    recovery := { rt.recovery with
      unsuccessful := rt.recovery.unsuccessful + 1
      outGoing := rt.recovery.outGoing - 1 } }

/-- The packets of a migrated flow are about to be replayed. -/
def arriving (rt : Runtime σ τ) (sent : Bool) (ptr : ℕ) (senderRtid : UInt32) (message : Message σ)
    (states : ℕ → σ) : Runtime σ τ :=
  let actor := rt.actors ptr
  let loaded :=
    NfTable.loadChain (fun nf slot ↦ nf.nfFlowArrive slot .migrateIn) states 0 actor.chain rt.nfs
  let rt' := ({ rt with nfs := loaded }.post sent senderRtid actor.actorId message.sendActorId
    (.migrateFlowStateResponse message.msgId)).enter ptr .normalProcessing
  { rt'.addTail .activeFlows ptr with migration := { rt.migration with
      migratedInFlowNum := rt.migration.migratedInFlowNum + 1 } }

/-- `coordinator_mp` takes an actor off the active list. -/
def departed (rt : Runtime σ τ) (ptr : ℕ) : Runtime σ τ :=
  { rt with
    links := rt.links.del (.actor ptr)
    migration := { rt.migration with
      qouta := rt.migration.qouta - 1
      outgoing := rt.migration.outgoing + 1 } }

def creationRequest (rt : Runtime σ τ) (ptr : ℕ) : Request σ :=
  let actor := rt.actors ptr
  ⟨actor.actorId, rt.migration.targetRtId, coordinatorActorId,
    .createMigrationTargetActor actor.inputHeader actor.outputHeader actor.flowKey, .startMigrationTimeout⟩

def routeRequest (rt : Runtime σ τ) (ptr : ℕ) (newOutputRtId : UInt32) : Request σ :=
  let actor := rt.actors ptr
  ⟨actor.actorId, actor.inputHeader.destRtid, coordinatorActorId,
    .changeVswitchRoute actor.flowKey newOutputRtId, .changeVswitchRouteTimeout⟩

def stateRequest (rt : Runtime σ τ) (env : Environment σ) (ptr : ℕ) : Request σ :=
  let actor := rt.actors ptr
  ⟨actor.actorId, rt.migration.targetRtId, actor.migrationTargetActorId,
    .migrateFlowState (rt.nfs.saveChain actor.chain env.staleStates), .migrateFlowStateTimeout⟩

def recoveryRequest (rt : Runtime σ τ) (ptr : ℕ) : Request σ :=
  let actor := rt.actors ptr
  ⟨actor.actorId, actor.inputHeader.destRtid, coordinatorActorId,
    .replicaRecover actor.flowKey rt.config.runtimeId, .replicaRecoverTimeout⟩

/-- The actor that one iteration of the first loop of `coordinator_mp` sends `start_migration_t`. -/
def migrationPick (rt : Runtime σ τ) : Option ℕ :=
  if rt.migration.qouta = 0 ∨ rt.migration.outgoing > 256 then none
  else (rt.peekHead .activeFlows).bind id

/-- The replica that an iteration of the second loop of `coordinator_mp` recovers. -/
def recoveryPick (rt : Runtime σ τ) : Option ℕ :=
  if rt.recovery.storageRtid = 0 ∨ rt.recovery.outGoing > 128 then none
  else (rt.replicaFlowLists rt.recovery.storageRtid).bind fun head ↦
    (rt.peekHead (.replicaFlows head)).bind id

/-- The idle check removes an actor. -/
def Leaves (rt : Runtime σ τ) (ptr : ℕ) : Prop :=
  (rt.actors ptr).currentState.code % 2 = 1 ∧ (rt.actors ptr).sampleCounter = (rt.actors ptr).pktCounter

section

variable (rt : Runtime σ τ) (ptr : ℕ) (ring : RingBuffer ℕ) (r : Option UInt32)

/-- `flow_actor_init_with_pkt_t`. -/
def packetOpening (env : Environment σ) (pkt : Packet) (inputRt : UInt32)
    (replication : ReplicationState) : Opening :=
  let output := env.outputItem.getD (rt.config.defaultOutputMac, 0)
  ⟨ptr, ring, .activeFlows, flowKeyOf pkt, .normalProcessing, replication, r,
    EtherHeader.init inputRt (srcMac pkt) rt.config.inputPortMac,
    EtherHeader.init output.2 output.1 rt.config.outputPortMac, true⟩

/-- `flow_actor_init_with_cstruct_t`. -/
def targetOpening (inputHeader outputHeader : EtherHeader) (key : FlowKey) : Opening :=
  ⟨ptr, ring, .activeFlows, key, .migrationTarget, .noReplica, r,
    EtherHeader.init inputHeader.destRtid inputHeader.dAddr rt.config.inputPortMac,
    EtherHeader.init outputHeader.destRtid outputHeader.dAddr rt.config.outputPortMac, true⟩

/-- `flow_actor_init_with_first_rep_pkt_t`. -/
def replicaOpening (inputHeader outputHeader : EtherHeader) (key : FlowKey) (head : ℕ) : Opening :=
  ⟨ptr, ring, .replicaFlows head, key, .normalProcessing, .isReplica, r,
    EtherHeader.init inputHeader.destRtid inputHeader.dAddr rt.config.inputPortMac,
    EtherHeader.init outputHeader.destRtid outputHeader.dAddr rt.config.outputPortMac, false⟩

end

/-! ## The outcomes -/

/-- The steps that leave everything as it is. -/
inductive Rests (rt : Runtime σ τ) : Input σ → Prop
  | pong (env : Environment σ) (senderRtid : UInt32) (message : Message σ) :
      message.recvActorId = coordinatorActorId → message.body = .pong →
      Rests rt (.message env senderRtid message)
  | refused (env : Environment σ) (senderRtid : UInt32) (message : Message σ)
      (inputHeader outputHeader : EtherHeader) (key : FlowKey) :
      message.recvActorId = coordinatorActorId →
      message.body = .createMigrationTargetActor inputHeader outputHeader key →
      rt.allocator.pop = none → Rests rt (.message env senderRtid message)
  | unknown (env : Environment σ) (senderRtid : UInt32) (message : Message σ) :
      message.recvActorId ≠ coordinatorActorId → rt.actoridHtable message.recvActorId = none →
      Rests rt (.message env senderRtid message)
  | stale (env : Environment σ) (senderRtid : UInt32) (message : Message σ) (ptr : ℕ) (kind : TimerKind)
      (requestMsgId : UInt32) : message.recvActorId ≠ coordinatorActorId →
      rt.actoridHtable message.recvActorId = some ptr →
      message.body.request = some (kind, requestMsgId) →
      requestMsgId ≠ ((rt.actors ptr).timer kind).requestMsgId → Rests rt (.message env senderRtid message)
  | noMigration (env : Environment σ) : rt.migrationPick = none → Rests rt (.migrationIteration env)
  | noRecovery (env : Environment σ) : rt.recoveryPick = none → Rests rt (.recoveryIteration env)

/-- The steps that begin a batch, count, or handle a command. -/
inductive Tallies (rt : Runtime σ τ) : Input σ → Runtime σ τ → Prop
  | schedulerBatch : Tallies rt .beginSchedulerBatch { rt with ecSchedulerBatch := [] }
  | controlBatch : Tallies rt .beginControlBatch { rt with gb := [] }
  | skipMigration (env : Environment σ) : rt.migration.qouta ≠ 0 → rt.migrationPick = none →
      Tallies rt (.migrationIteration env) { rt with migration := { rt.migration with
        qouta := rt.migration.qouta - 1
        null := rt.migration.null + 1 } }
  | recoveryDone (env : Environment σ) : rt.recoveryPick = none → rt.recovery.outGoing = 0 →
      Tallies rt (.recoveryIteration env) { rt with recovery := { rt.recovery with storageRtid := 0 } }
  | migrateTo (migrationQouta : UInt64) (runtimeId : UInt32) :
      Tallies rt (.migrateTo migrationQouta runtimeId) (rt.migrateTo migrationQouta runtimeId)
  | recover (runtimeId : UInt32) : Tallies rt (.recover runtimeId) (rt.recover runtimeId)
  | addStorage (runtimeId : UInt32) : Tallies rt (.addStorage runtimeId) (rt.addStorage runtimeId)
  | removeStorage (runtimeId : UInt32) : Tallies rt (.removeStorage runtimeId) (rt.removeStorage runtimeId)

/-- The steps at which an actor gives up migrating, with the runtime before. -/
inductive Abandons (rt : Runtime σ τ) : Input σ → Runtime σ τ → ℕ → Prop
  | timeout (env : Environment σ) (ptr : ℕ) (kind : TimerKind) : ((rt.actors ptr).timer kind).Armed →
      ((rt.actors ptr).timer kind).msgType = .startMigrationTimeout ∨
        ((rt.actors ptr).timer kind).msgType = .changeVswitchRouteTimeout ∧
          (env.reliables (rt.actors ptr).inputHeader.destRtid).any PeerView.connectionUp = false →
      Abandons rt (.fire env ptr kind) (rt.invalidate ptr .migration) ptr
  | response (env : Environment σ) (senderRtid : UInt32) (message : Message σ) (ptr : ℕ) (succeed : UInt32) :
      rt.ledger.Delivers message ptr → message.body =
        .changeVswitchRouteResponse (rt.actors ptr).migrationTimer.requestMsgId succeed →
      (rt.actors ptr).currentState = .failureProcessing ∨ succeed = 1 →
      Abandons rt (.message env senderRtid message) (rt.invalidate ptr .migration) ptr
  | refuse (env : Environment σ) (ptr : ℕ) : rt.migrationPick = some ptr →
      (rt.actors ptr).replicationState = .haveReplica →
      Abandons rt (.migrationIteration env) (rt.departed ptr) ptr

/-- The steps at which an actor makes a request, with the runtime before and whether it is sent. -/
inductive Prepares (rt : Runtime σ τ) : Input σ → Runtime σ τ → Bool → ℕ → Request σ → Prop
  | depart (env : Environment σ) (ptr : ℕ) (sent : Bool) : rt.migrationPick = some ptr →
      (rt.actors ptr).replicationState ≠ .haveReplica → ¬(rt.actors ptr).migrationTimer.Armed →
      Prepares rt (.migrationIteration env) ((rt.departed ptr).enter ptr .migrationSource) sent ptr
        (rt.creationRequest ptr)
  | forward (env : Environment σ) (senderRtid : UInt32) (message : Message σ) (ptr : ℕ) (targetId : UInt32)
      (sent : Bool) : rt.ledger.Delivers message ptr → message.body =
        .startMigrationResponse (rt.actors ptr).migrationTimer.requestMsgId targetId →
      Prepares rt (.message env senderRtid message) ((rt.invalidate ptr .migration).modifyActor ptr
        fun actor ↦ { actor with migrationTargetActorId := targetId }) sent ptr
        (rt.routeRequest ptr rt.migration.targetRtId)
  | ship (env : Environment σ) (senderRtid : UInt32) (message : Message σ) (ptr : ℕ) (succeed : UInt32) :
      rt.ledger.Delivers message ptr → message.body =
        .changeVswitchRouteResponse (rt.actors ptr).migrationTimer.requestMsgId succeed →
      ¬((rt.actors ptr).currentState = .failureProcessing ∨ succeed = 1) →
      (env.reliables rt.migration.targetRtId).any (fun peer ↦ peer.connectionUp && env.sendOk) = true →
      Prepares rt (.message env senderRtid message)
        ((rt.invalidate ptr .migration).enter ptr .afterRouteChange) true ptr (rt.stateRequest env ptr)
  | stay (env : Environment σ) (senderRtid : UInt32) (message : Message σ) (ptr : ℕ) (succeed : UInt32)
      (sent : Bool) : rt.ledger.Delivers message ptr → message.body =
        .changeVswitchRouteResponse (rt.actors ptr).migrationTimer.requestMsgId succeed →
      ¬((rt.actors ptr).currentState = .failureProcessing ∨ succeed = 1) →
      (env.reliables rt.migration.targetRtId).any (fun peer ↦ peer.connectionUp && env.sendOk) = false →
      Prepares rt (.message env senderRtid message)
        (({ rt with nextMsgId := rt.nextMsgId + 1 }.invalidate ptr .migration).enter ptr .failureProcessing)
        sent ptr (rt.routeRequest ptr rt.config.runtimeId)
  | back (env : Environment σ) (ptr : ℕ) (kind : TimerKind) (sent : Bool) :
      ((rt.actors ptr).timer kind).Armed →
      ((rt.actors ptr).timer kind).msgType = .migrateFlowStateTimeout ∨
        ((rt.actors ptr).timer kind).msgType = .changeVswitchRouteTimeout ∧
          (env.reliables (rt.actors ptr).inputHeader.destRtid).any PeerView.connectionUp = true →
      Prepares rt (.fire env ptr kind) ((rt.invalidate ptr .migration).enter ptr .failureProcessing) sent ptr
        (rt.routeRequest ptr rt.config.runtimeId)
  | recover (env : Environment σ) (ptr : ℕ) (sent : Bool) : rt.recoveryPick = some ptr →
      ¬(rt.actors ptr).replicationTimer.Armed →
      Prepares rt (.recoveryIteration env) { rt with
        links := rt.links.del (.actor ptr)
        recovery := { rt.recovery with outGoing := rt.recovery.outGoing + 1 } } sent ptr (rt.recoveryRequest ptr)
  | recoverAgain (env : Environment σ) (ptr : ℕ) (kind : TimerKind) (sent : Bool) :
      ((rt.actors ptr).timer kind).Armed →
      ((rt.actors ptr).timer kind).msgType = .replicaRecoverTimeout →
      (env.reliables (rt.actors ptr).inputHeader.destRtid).any PeerView.connectionUp = true →
      Prepares rt (.fire env ptr kind) (rt.invalidate ptr .replication) sent ptr (rt.recoveryRequest ptr)

/-- The steps that open a flow, with the next runtime. -/
inductive Opens (rt : Runtime σ τ) : Input σ → Opening → Runtime σ τ → Prop
  | packet (env : Environment σ) (pkt : Packet) (ptr : ℕ) (ring : RingBuffer ℕ) (inputRt : UInt32)
      (replication : ReplicationState) (r : Option UInt32) (rt' : Runtime σ τ) :
      rt.htable (flowKeyOf pkt) = none → inputRtid env (srcMac pkt) = some inputRt →
      replication ≠ .isReplica →
      (rt.opened (rt.packetOpening ptr ring r env pkt inputRt replication)).pktMsg env ptr pkt = some rt' →
      (replication = .haveReplica → env.replicaItem.isSome = true) →
      Opens rt (.packet env pkt) (rt.packetOpening ptr ring r env pkt inputRt replication) rt'
  | target (env : Environment σ) (senderRtid : UInt32) (message : Message σ)
      (inputHeader outputHeader : EtherHeader) (key : FlowKey) (ptr : ℕ) (ring : RingBuffer ℕ)
      (r : Option UInt32) (sent : Bool) : message.recvActorId = coordinatorActorId →
      message.body = .createMigrationTargetActor inputHeader outputHeader key →
      Opens rt (.message env senderRtid message) (rt.targetOpening ptr ring r inputHeader outputHeader key)
        ((rt.opened (rt.targetOpening ptr ring r inputHeader outputHeader key)).post sent senderRtid
          coordinatorActorId message.sendActorId (.startMigrationResponse message.msgId rt.nextFlowActorId))
  | replica (env : Environment σ) (senderRtid : UInt32) (message : Message σ)
      (inputHeader outputHeader : EtherHeader) (key : FlowKey) (states : ℕ → σ) (pkt : Packet) (ptr : ℕ)
      (ring : RingBuffer ℕ) (r : Option UInt32) (head : ℕ) (rt' : Runtime σ τ) :
      message.recvActorId = coordinatorActorId →
      message.body = .replication inputHeader outputHeader key states pkt → rt.htable key = none →
      rt.replicaFlowLists senderRtid = some head →
      (rt.opened (rt.replicaOpening ptr ring r inputHeader outputHeader key head)).repFsPktMsg ptr states pkt =
        some rt' →
      Opens rt (.message env senderRtid message)
        (rt.replicaOpening ptr ring r inputHeader outputHeader key head) rt'

/-- One of the two messages that change a route, with its answer. -/
inductive Reroutes (message : Message σ) (key : FlowKey) (newOutputRtId outcome : UInt32) :
    MessageBody σ → Prop
  | migration : message.body = .changeVswitchRoute key newOutputRtId →
      Reroutes message key newOutputRtId outcome (.changeVswitchRouteResponse message.msgId outcome)
  | recovery : message.body = .replicaRecover key newOutputRtId →
      Reroutes message key newOutputRtId outcome (.replicaRecoverResponse message.msgId outcome)

/-- The allocator hands out the actor, and its idle timer is off. -/
def Grants (rt : Runtime σ τ) (opening : Opening) : Prop :=
  rt.allocator.pop = some (opening.ptr, opening.ring) ∧ ¬(rt.actors opening.ptr).idleTimer.Armed

/-- The ways in which a step can succeed. -/
inductive Outcome (rt : Runtime σ τ) : Input σ → Runtime σ τ → Prop
  | rest (input : Input σ) : rt.Rests input → Outcome rt input rt
  | tally (input : Input σ) (rt' : Runtime σ τ) : rt.Tallies input rt' → Outcome rt input rt'
  | abandon (input : Input σ) (base : Runtime σ τ) (ptr : ℕ) : rt.Abandons input base ptr →
      Outcome rt input (base.abandonMigration ptr)
  | ask (input : Input σ) (base : Runtime σ τ) (sent : Bool) (ptr : ℕ) (request : Request σ) :
      rt.Prepares input base sent ptr request → Outcome rt input (base.ask sent ptr request)
  | newFlow (input : Input σ) (opening : Opening) (rt' : Runtime σ τ) : rt.Grants opening →
      rt.Opens input opening rt' → Outcome rt input rt'
  | packet (env : Environment σ) (pkt : Packet) (ptr : ℕ) (rt' : Runtime σ τ) :
      rt.htable (flowKeyOf pkt) = some ptr → rt.pktMsg env ptr pkt = some rt' →
      Outcome rt (.packet env pkt) rt'
  | unserved (env : Environment σ) (pkt : Packet) (rt' : Runtime σ τ) : rt.htable (flowKeyOf pkt) = none →
      rt.allocator.pop = none →
      (rt.bind (flowKeyOf pkt) deadendFlowActor).pktMsg env deadendFlowActor pkt = some rt' →
      Outcome rt (.packet env pkt) rt'
  | ping (env : Environment σ) (senderRtid : UInt32) (message : Message σ) (sent : Bool) :
      message.recvActorId = coordinatorActorId → message.body = .ping →
      Outcome rt (.message env senderRtid message) { rt with outbox := if sent then
        rt.outbox ++ [(senderRtid, ⟨coordinatorActorId, coordinatorActorId, 77364, .pong⟩)] else rt.outbox }
  | route (env : Environment σ) (senderRtid : UInt32) (message : Message σ) (key : FlowKey)
      (newOutputRtId : UInt32) (updated : UInt32 × Runtime σ τ) (answer : MessageBody σ) (sent : Bool) :
      message.recvActorId = coordinatorActorId → Reroutes message key newOutputRtId updated.1 answer →
      rt.updateRoute env key newOutputRtId = some updated →
      Outcome rt (.message env senderRtid message)
        (updated.2.post sent senderRtid coordinatorActorId message.sendActorId answer)
  | mirror (env : Environment σ) (senderRtid : UInt32) (message : Message σ)
      (inputHeader outputHeader : EtherHeader) (key : FlowKey) (states : ℕ → σ) (pkt : Packet) (ptr : ℕ)
      (rt' : Runtime σ τ) : message.recvActorId = coordinatorActorId →
      message.body = .replication inputHeader outputHeader key states pkt → rt.htable key = some ptr →
      rt.repFsPktMsg ptr states pkt = some rt' → Outcome rt (.message env senderRtid message) rt'
  | bindDeadend (env : Environment σ) (senderRtid : UInt32) (message : Message σ)
      (inputHeader outputHeader : EtherHeader) (key : FlowKey) (states : ℕ → σ) (pkt : Packet)
      (rt' : Runtime σ τ) : message.recvActorId = coordinatorActorId →
      message.body = .replication inputHeader outputHeader key states pkt → rt.htable key = none →
      rt.allocator.pop = none →
      (rt.bind key deadendFlowActor).repFsPktMsg deadendFlowActor states pkt = some rt' →
      Outcome rt (.message env senderRtid message) rt'
  | arrive (env : Environment σ) (senderRtid : UInt32) (message : Message σ) (ptr : ℕ) (states : ℕ → σ)
      (sent : Bool) (rt' : Runtime σ τ) : rt.ledger.Delivers message ptr →
      message.body = .migrateFlowState states →
      (rt.arriving sent ptr senderRtid message states).replayBuffer ptr (rt.actors ptr).buffer = some rt' →
      Outcome rt (.message env senderRtid message) rt'
  | complete (env : Environment σ) (senderRtid : UInt32) (message : Message σ) (ptr : ℕ) :
      rt.ledger.Delivers message ptr →
      message.body = .migrateFlowStateResponse (rt.actors ptr).migrationTimer.requestMsgId →
      Outcome rt (.message env senderRtid message) ((rt.settled ptr).removed ptr)
  | recovered (env : Environment σ) (senderRtid : UInt32) (message : Message σ) (ptr : ℕ) (succeed : UInt32) :
      rt.ledger.Delivers message ptr → message.body =
        .replicaRecoverResponse (rt.actors ptr).replicationTimer.requestMsgId succeed →
      Outcome rt (.message env senderRtid message) (rt.recovered ptr)
  | notRecovered (env : Environment σ) (ptr : ℕ) (kind : TimerKind) (peer : PeerView) :
      ((rt.actors ptr).timer kind).Armed → ((rt.actors ptr).timer kind).msgType = .replicaRecoverTimeout →
      env.reliables (rt.actors ptr).inputHeader.destRtid = some peer → peer.connectionUp = false →
      Outcome rt (.fire env ptr kind) (rt.notRecovered ptr)
  | idleAgain (env : Environment σ) (ptr : ℕ) (kind : TimerKind) : ((rt.actors ptr).timer kind).Armed →
      ((rt.actors ptr).timer kind).msgType = .checkIdle → ¬rt.Leaves ptr →
      Outcome rt (.fire env ptr kind) ((rt.invalidate ptr .idle).modifyActor ptr fun actor ↦ { actor with
        sampleCounter := actor.pktCounter
        idleTimer := ⟨idleMessageId, .checkIdle⟩ })
  | leave (env : Environment σ) (ptr : ℕ) (kind : TimerKind) : ((rt.actors ptr).timer kind).Armed →
      ((rt.actors ptr).timer kind).msgType = .checkIdle → rt.Leaves ptr →
      Outcome rt (.fire env ptr kind) ((rt.left ptr).removed ptr)

/-- The packet counter of an actor goes up. -/
def counted (rt : Runtime σ τ) (ptr : ℕ) : Runtime σ τ :=
  rt.modifyActor ptr fun actor ↦ { actor with pktCounter := actor.pktCounter + 1 }

/-- The chain of an actor has run on a packet. -/
def ran (rt : Runtime σ τ) (ptr : ℕ) (pkt : Packet) : Runtime σ τ :=
  { rt with nfs := (NfTable.runChain (rt.actors ptr).chain pkt rt.nfs).2.2 }.counted ptr

/-- The packet as it leaves the chain. -/
def processed (rt : Runtime σ τ) (ptr : ℕ) (pkt : Packet) : Packet :=
  writeEther (NfTable.runChain (rt.actors ptr).chain pkt rt.nfs).2.1 (rt.actors ptr).outputHeader

/-- The ways in which an actor can take a packet. -/
inductive Takes (rt : Runtime σ τ) (env : Environment σ) (ptr : ℕ) (pkt : Packet) : Runtime σ τ → Prop
  | full : (rt.actors ptr).currentState = .migrationTarget → rt.collectiveBuffer.pop = none →
      Takes rt env ptr pkt { (rt.counted ptr).collect pkt with migration :=
        { rt.migration with targetLoss := rt.migration.targetLoss + 1 } }
  | keep (cell : ℕ) (ring : RingBuffer ℕ) : (rt.actors ptr).currentState = .migrationTarget →
      rt.collectiveBuffer.pop = some (cell, ring) →
      Takes rt env ptr pkt ({ rt.counted ptr with collectiveBuffer := ring }.modifyActor ptr fun actor ↦
        { actor with buffer := actor.buffer ++ [(cell, pkt)] })
  | late : (rt.actors ptr).currentState = .afterRouteChange →
      Takes rt env ptr pkt (rt.pktProcessAfterRouteChange pkt)
  | emit (batch : List Packet) : (rt.actors ptr).currentState.processes = true →
      (rt.actors ptr).replicationState ≠ .haveReplica →
      Takes rt env ptr pkt { rt.ran ptr pkt with ecSchedulerBatch := batch }
  | disconnect (batch : List Packet) : (rt.actors ptr).currentState.processes = true →
      (rt.actors ptr).replicationState = .haveReplica → env.replicaConnection = some false →
      Takes rt env ptr pkt ({ rt.ran ptr pkt with ecSchedulerBatch := batch }.modifyActor ptr fun actor ↦
        { actor with replicationState := .noReplica })
  | replicate (dest : UInt32) : (rt.actors ptr).currentState.processes = true →
      (rt.actors ptr).replicationState = .haveReplica → env.replicaConnection = some true →
      Takes rt env ptr pkt (((rt.ran ptr pkt).collect (rt.processed ptr pkt)).post env.sendOk dest
        (rt.actors ptr).actorId coordinatorActorId (.replication (rt.actors ptr).inputHeader
          (rt.actors ptr).outputHeader (rt.actors ptr).flowKey
          ((rt.ran ptr pkt).nfs.saveChain (rt.actors ptr).chain env.staleStates) (rt.processed ptr pkt)))

@[simp]
theorem actors_modifyActor (rt : Runtime σ τ) (ptr : ℕ) (change : FlowActor → FlowActor) :
    (rt.modifyActor ptr change).actors ptr = change (rt.actors ptr) := by
  simp [modifyActor]

theorem cards_ledger (rt : Runtime σ τ) (ptr : ℕ) : rt.ledger.cards ptr = (rt.actors ptr).card := rfl

theorem card_timer (actor : FlowActor) (kind : TimerKind) : actor.card.timer kind = actor.timer kind := by
  cases kind <;> rfl

variable {rt rt' base occupied started : Runtime σ τ} {ptr : ℕ} {kind : TimerKind} {env : Environment σ}
  {sendOk : Bool} {requestMsgId senderRtid : UInt32} {msgType : TimerMessage} {input : Input σ} {pkt : Packet}
  {message : Message σ}

theorem unlink_spec (h : rt.unlink ptr = some rt') : rt' = { rt with links := rt.links.del (.actor ptr) } := by
  unfold unlink at h
  split at h
  · cases h
  · exact (Option.some.inj h).symm

theorem addTimer_spec (h : rt.addTimer ptr kind requestMsgId msgType = some rt') :
    ¬((rt.actors ptr).timer kind).Armed ∧
      rt' = rt.modifyActor ptr fun actor ↦ actor.setTimer kind ⟨requestMsgId, msgType⟩ := by
  unfold addTimer at h
  split at h
  · next hidle => exact ⟨fun harmed ↦ harmed hidle, (Option.some.inj h).symm⟩
  · cases h

theorem sendMessage_spec {dest sendActorId recvActorId : UInt32} {body : MessageBody σ}
    {sent : Bool × Runtime σ τ} (h : rt.sendMessage env sendOk dest sendActorId recvActorId body = some sent) :
    sent.2 = rt.post sent.1 dest sendActorId recvActorId body ∧
      sent.1 = (env.reliables dest).any fun peer ↦ peer.connectionUp && sendOk := by
  unfold sendMessage at h
  obtain ⟨peer, hpeer, rfl⟩ := map_eq_some_iff.1 h
  rw [hpeer, Option.any_some]
  dsimp only
  split
  · next hflag => exact ⟨rfl, hflag.symm⟩
  · next hflag => exact ⟨rfl, (Bool.eq_false_of_not_eq_true hflag).symm⟩

/-- A handler that sends a request and arms the timer for its answer. -/
theorem sendRequest_spec (request : Request σ)
    (h : (base.sendMessage env sendOk request.dest request.sendActorId request.recvActorId request.body).bind
      (fun sent ↦ sent.2.addTimer ptr request.msgType.kind base.nextMsgId request.msgType) = some rt') :
    ¬((base.actors ptr).timer request.msgType.kind).Armed ∧ ∃ sent, rt' = base.ask sent ptr request := by
  obtain ⟨sent, hsent, htimer⟩ := bind_eq_some_iff.1 h
  rw [(sendMessage_spec hsent).1] at htimer
  obtain ⟨hidle, hrt⟩ := addTimer_spec htimer
  exact ⟨hidle, sent.1, hrt⟩

theorem allocate_spec (h : rt.allocate = some (ptr, occupied)) :
    ∃ ring, rt.allocator.pop = some (ptr, ring) ∧ occupied =
      { rt with allocator := ring, nextFlowActorId := rt.nextFlowActorId + 1 }.modifyActor ptr
        fun actor ↦ { actor with actorId := rt.nextFlowActorId } := by
  obtain ⟨⟨popped, ring⟩, hpop, heq⟩ := map_eq_some_iff.1 h
  simp only [Prod.mk.injEq] at heq
  obtain ⟨rfl, rfl⟩ := heq
  exact ⟨ring, hpop, rfl⟩

theorem allocate_eq_none (h : rt.allocate = none) : rt.allocator.pop = none := Option.map_eq_none_iff.1 h

theorem actors_opened (rt : Runtime σ τ) (opening : Opening) :
    (rt.opened opening).actors opening.ptr = rt.openedActor opening :=
  update_self ..

/-- The init messages, from the allocation to the entries in the tables. -/
theorem bind_initFlow (opening : Opening)
    (h : (({ rt with allocator := opening.ring, nextFlowActorId := rt.nextFlowActorId + 1 }.modifyActor
      opening.ptr fun actor ↦ { actor with actorId := rt.nextFlowActorId }).addTail opening.head
      opening.ptr).initFlow opening.ptr opening.key opening.state opening.replication opening.r
      opening.inputHeader opening.outputHeader opening.initialise = some started) :
    ¬(rt.actors opening.ptr).idleTimer.Armed ∧ started.bind opening.key opening.ptr = rt.opened opening := by
  obtain ⟨hidle, hstarted⟩ := addTimer_spec h
  refine ⟨?_, ?_⟩
  · simpa [addTail, modifyActor, FlowActor.timer] using hidle
  · rw [hstarted, opened]
    simp [addTail, modifyActor, bind, FlowActor.setTimer, openedActor]

theorem removeFlow_spec (h : rt.removeFlow ptr = some rt') : rt' = rt.removed ptr := by
  unfold removeFlow at h
  rw [removed]
  dsimp only at h ⊢
  split at h
  · next hdeadend => rw [if_pos hdeadend, ← Option.some.inj h]
  · next hptr =>
    obtain ⟨unlinked, hunlink, rfl⟩ := map_eq_some_iff.1 h
    rw [if_neg hptr, unlink_spec hunlink]
    rfl

theorem peekHead_spec {head : ListNode} (h : rt.peekHead head = some (some ptr)) :
    rt.links.peekFirst head = some (.actor ptr) := by
  unfold peekHead at h
  split at h
  · cases h
  · next ptr' hfirst =>
    simp only [Option.some.injEq] at h
    rw [hfirst, h]
  · cases h

theorem migrationPick_spec (h : rt.migrationPick = some ptr) :
    rt.migration.qouta ≠ 0 ∧ rt.links.peekFirst .activeFlows = some (.actor ptr) := by
  unfold migrationPick at h
  split at h
  · cases h
  · next hgo =>
    obtain ⟨_, hfirst, rfl⟩ := bind_eq_some_iff.1 h
    exact ⟨(not_or.1 hgo).1, peekHead_spec hfirst⟩

theorem recoveryPick_spec (h : rt.recoveryPick = some ptr) :
    (rt.recovery.storageRtid ≠ 0 ∧ ¬rt.recovery.outGoing > 128) ∧
      ∃ head, rt.links.peekFirst (.replicaFlows head) = some (.actor ptr) := by
  unfold recoveryPick at h
  split at h
  · cases h
  · next hgo =>
    obtain ⟨head, -, h⟩ := bind_eq_some_iff.1 h
    obtain ⟨_, hfirst, rfl⟩ := bind_eq_some_iff.1 h
    exact ⟨not_or.1 hgo, head, peekHead_spec hfirst⟩

/-! ## Inversion -/

theorem actors_enter (rt : Runtime σ τ) (ptr : ℕ) (state : FlowState) :
    (rt.enter ptr state).actors ptr = { rt.actors ptr with currentState := state } :=
  actors_modifyActor ..

theorem actors_invalidate (rt : Runtime σ τ) (ptr : ℕ) (kind : TimerKind) :
    (rt.invalidate ptr kind).actors ptr =
      (rt.actors ptr).setTimer kind ((rt.actors ptr).timer kind).invalidate :=
  actors_modifyActor ..

theorem actors_ask (rt : Runtime σ τ) (sent : Bool) (ptr : ℕ) (request : Request σ) :
    (rt.ask sent ptr request).actors ptr =
      (rt.actors ptr).setTimer request.msgType.kind ⟨rt.nextMsgId, request.msgType⟩ :=
  actors_modifyActor ..

theorem failureHandling_spec (h : base.failureHandling env sendOk ptr = some rt') :
    ∃ sent, rt' = (base.enter ptr .failureProcessing).ask sent ptr
      (base.routeRequest ptr base.config.runtimeId) := by
  obtain ⟨-, sent, hrt⟩ :=
    sendRequest_spec ((base.enter ptr .failureProcessing).routeRequest ptr base.config.runtimeId) h
  refine ⟨sent, ?_⟩
  rw [hrt, routeRequest, actors_enter]
  rfl

theorem startRecover_spec (h : base.startRecover env ptr = some rt') :
    ¬(base.actors ptr).replicationTimer.Armed ∧ ∃ sent, rt' = base.ask sent ptr (base.recoveryRequest ptr) :=
  sendRequest_spec (base.recoveryRequest ptr) h

/-- The actor that a packet is passed to, created for the first packet of a flow. -/
def receiver (rt : Runtime σ τ) (env : Environment σ) (pkt : Packet) : Option (ℕ × Runtime σ τ) :=
  let key := flowKeyOf pkt
  match rt.htable key with
  | some ptr => some (ptr, rt)
  | none =>
    match rt.allocate with
    | none => some (deadendFlowActor, rt.bind key deadendFlowActor)
    | some (ptr, rt) =>
      ((rt.addTail .activeFlows ptr).flowActorInitWithPkt env ptr key pkt).map fun rt ↦
        (ptr, rt.bind key ptr)

theorem schedule_eq (rt : Runtime σ τ) (env : Environment σ) (pkt : Packet) :
    rt.schedule env pkt = (rt.receiver env pkt).bind fun received ↦ received.2.pktMsg env received.1 pkt := by
  unfold schedule receiver
  dsimp only
  cases hfound : rt.htable (flowKeyOf pkt) with
  | some => rfl
  | none =>
    cases hallocate : rt.allocate with
    | none => rfl
    | some =>
      dsimp only
      rw [Option.bind_map]
      rfl

/-- This actor is found, the deadend actor, or new. -/
theorem receiver_spec (h : rt.receiver env pkt = some (ptr, rt')) :
    (rt.htable (flowKeyOf pkt) = some ptr ∧ rt' = rt) ∨ rt.htable (flowKeyOf pkt) = none ∧
      (rt.allocator.pop = none ∧ ptr = deadendFlowActor ∧ rt' = rt.bind (flowKeyOf pkt) deadendFlowActor ∨
        ∃ ring inputRt replication r, inputRtid env (srcMac pkt) = some inputRt ∧ replication ≠ .isReplica ∧
          rt.Grants (rt.packetOpening ptr ring r env pkt inputRt replication) ∧
          rt' = rt.opened (rt.packetOpening ptr ring r env pkt inputRt replication) ∧
          (replication = .haveReplica → env.replicaItem.isSome = true)) := by
  unfold receiver at h
  dsimp only at h
  split at h
  · next hptr =>
    cases h
    exact .inl ⟨hptr, rfl⟩
  · next hnone =>
    refine .inr ⟨hnone, ?_⟩
    split at h
    · next hempty =>
      cases h
      exact .inl ⟨allocate_eq_none hempty, rfl, rfl⟩
    · next ptr occupied hallocate =>
      obtain ⟨ring, hpop, rfl⟩ := allocate_spec hallocate
      obtain ⟨started, hstarted, heq⟩ := map_eq_some_iff.1 h
      obtain ⟨rfl, rfl⟩ := Prod.mk.inj heq
      obtain ⟨inputRt, hinput, hstarted⟩ := bind_eq_some_iff.1 hstarted
      dsimp only at hstarted
      split at hstarted
      · obtain ⟨hidle, hbound⟩ := bind_initFlow (rt.packetOpening ptr ring _ env pkt inputRt .noReplica) hstarted
        exact .inr ⟨ring, inputRt, _, _, hinput, by decide, ⟨hpop, hidle⟩, hbound, nofun⟩
      · next hitem =>
        split at hstarted
        · obtain ⟨hidle, hbound⟩ :=
            bind_initFlow (rt.packetOpening ptr ring _ env pkt inputRt .haveReplica) hstarted
          exact .inr ⟨ring, inputRt, _, _, hinput, by decide, ⟨hpop, hidle⟩, hbound, fun _ ↦ by rw [hitem]; rfl⟩
        · cases hstarted

theorem schedule_outcome (h : rt.schedule env pkt = some rt') : rt.Outcome (.packet env pkt) rt' := by
  rw [schedule_eq] at h
  obtain ⟨⟨ptr, mid⟩, hreceiver, hpkt⟩ := bind_eq_some_iff.1 h
  rcases receiver_spec hreceiver with ⟨hptr, rfl⟩ | ⟨hnone, ⟨hempty, rfl, rfl⟩ |
    ⟨ring, inputRt, replication, r, hinput, hreplica, hgrants, rfl, hitem⟩⟩
  · exact .packet env pkt ptr rt' hptr hpkt
  · exact .unserved env pkt rt' hnone hempty hpkt
  · exact .newFlow _ _ rt' hgrants
      (.packet env pkt ptr ring inputRt replication r rt' hnone hinput hreplica hpkt hitem)

theorem matchCoordinator_outcome (hrecv : message.recvActorId = coordinatorActorId)
    (h : rt.matchCoordinator env senderRtid message = some rt') :
    rt.Outcome (.message env senderRtid message) rt' := by
  unfold matchCoordinator at h
  split at h
  · next hbody =>
    obtain ⟨peer, -, rfl⟩ := map_eq_some_iff.1 h
    split
    · exact .ping env senderRtid message true hrecv hbody
    · exact .ping env senderRtid message false hrecv hbody
  · next hbody =>
    cases h
    exact .rest _ (.pong env senderRtid message hrecv hbody)
  · next inputHeader outputHeader key hbody =>
    unfold createMigrationTargetActor at h
    split at h
    · next hempty =>
      cases h
      exact .rest _ (.refused env senderRtid message inputHeader outputHeader key hrecv hbody
        (allocate_eq_none hempty))
    · next ptr occupied hallocate =>
      obtain ⟨ring, hpop, rfl⟩ := allocate_spec hallocate
      obtain ⟨started, hstarted, h⟩ := bind_eq_some_iff.1 h
      obtain ⟨sent, hsent, rfl⟩ := map_eq_some_iff.1 h
      obtain ⟨hidle, hbound⟩ := bind_initFlow (rt.targetOpening ptr ring _ inputHeader outputHeader key) hstarted
      have hactor : ((started.bind key ptr).actors ptr).actorId = rt.nextFlowActorId := by
        rw [show started.bind key ptr = _ from hbound]
        exact congrArg FlowActor.actorId (actors_opened ..)
      rw [(sendMessage_spec hsent).1, hactor, show started.bind key ptr = _ from hbound]
      exact .newFlow _ _ _ ⟨hpop, hidle⟩ (.target env senderRtid message inputHeader outputHeader key ptr ring _
        sent.1 hrecv hbody)
  · next key newOutputRtId hbody =>
    obtain ⟨updated, hupdated, h⟩ := bind_eq_some_iff.1 h
    obtain ⟨sent, hsent, rfl⟩ := map_eq_some_iff.1 h
    rw [(sendMessage_spec hsent).1]
    exact .route env senderRtid message key newOutputRtId updated _ sent.1 hrecv (.migration hbody) hupdated
  · next inputHeader outputHeader key states pkt hbody =>
    unfold replicationMsg at h
    split at h
    · next ptr hptr =>
      exact .mirror env senderRtid message inputHeader outputHeader key states pkt ptr rt' hrecv hbody hptr h
    · next hnone =>
      split at h
      · next hempty =>
        exact .bindDeadend env senderRtid message inputHeader outputHeader key states pkt rt' hrecv hbody hnone
          (allocate_eq_none hempty) h
      · next ptr occupied hallocate =>
        obtain ⟨ring, hpop, rfl⟩ := allocate_spec hallocate
        obtain ⟨head, hhead, h⟩ := bind_eq_some_iff.1 h
        obtain ⟨started, hstarted, h⟩ := bind_eq_some_iff.1 h
        obtain ⟨hidle, hbound⟩ :=
          bind_initFlow (rt.replicaOpening ptr ring _ inputHeader outputHeader key head) hstarted
        rw [show started.bind key ptr = _ from hbound] at h
        exact .newFlow _ _ rt' ⟨hpop, hidle⟩ (.replica env senderRtid message inputHeader outputHeader key states
          pkt ptr ring _ head rt' hrecv hbody hnone hhead h)
  · next key newOutputRtId hbody =>
    obtain ⟨updated, hupdated, h⟩ := bind_eq_some_iff.1 h
    obtain ⟨sent, hsent, rfl⟩ := map_eq_some_iff.1 h
    rw [(sendMessage_spec hsent).1]
    exact .route env senderRtid message key newOutputRtId updated _ sent.1 hrecv (.recovery hbody) hupdated
  · cases h

theorem shipFlowState_outcome {succeed : UInt32} (hdelivers : rt.ledger.Delivers message ptr)
    (hbody : message.body = .changeVswitchRouteResponse (rt.actors ptr).migrationTimer.requestMsgId succeed)
    (hforward : ¬((rt.actors ptr).currentState = .failureProcessing ∨ succeed = 1))
    (h : (rt.invalidate ptr .migration).shipFlowState env ptr = some rt') :
    rt.Outcome (.message env senderRtid message) rt' := by
  have hship : ((rt.invalidate ptr .migration).enter ptr .afterRouteChange).stateRequest env ptr =
      rt.stateRequest env ptr := by
    rw [stateRequest, actors_enter, actors_invalidate]
    rfl
  obtain ⟨sent, hsent, h⟩ := bind_eq_some_iff.1 h
  obtain ⟨hpost, hflag⟩ := sendMessage_spec hsent
  rw [hpost] at h
  split at h
  · next hroom =>
    obtain ⟨-, rfl⟩ := addTimer_spec h
    rw [hroom]
    have houtcome := Outcome.ask _ _ _ ptr _
      (.ship env senderRtid message ptr succeed hdelivers hbody hforward (hflag.symm.trans hroom))
    rw [← hship] at houtcome
    exact houtcome
  · next hroom =>
    rw [Bool.eq_false_of_not_eq_true hroom] at h hflag
    obtain ⟨again, rfl⟩ := failureHandling_spec h
    have houtcome := Outcome.ask _ _ _ ptr _
      (.stay env senderRtid message ptr succeed again hdelivers hbody hforward hflag.symm)
    simp only [enter, invalidate, post, modifyActor, routeRequest, FlowActor.setTimer, update_idem, update_self]
      at houtcome ⊢
    exact houtcome

theorem replicaRecoverResponse_spec (h : rt.replicaRecoverResponse ptr requestMsgId = some rt') :
    requestMsgId ≠ (rt.actors ptr).replicationTimer.requestMsgId ∧ rt' = rt ∨
      requestMsgId = (rt.actors ptr).replicationTimer.requestMsgId ∧ (rt.actors ptr).coordinatorSet = true ∧
        rt' = rt.recovered ptr := by
  unfold replicaRecoverResponse at h
  split at h
  · next hid => exact .inl ⟨hid, (Option.some.inj h).symm⟩
  · next hid =>
    split at h
    · next hset =>
      have hchain : (((rt.invalidate ptr .replication).activateReplica ptr).actors ptr).chain =
          (rt.actors ptr).chain := by
        simp [activateReplica, addTail, actors_invalidate, FlowActor.setTimer]
      dsimp only at h
      rw [hchain] at h
      exact .inr ⟨not_not.1 hid, hset, (Option.some.inj h).symm⟩
    · cases h

theorem matchFlowActor_outcome (hrecv : message.recvActorId ≠ coordinatorActorId)
    (hptr : rt.actoridHtable message.recvActorId = some ptr)
    (h : rt.matchFlowActor env senderRtid ptr message = some rt') :
    rt.Outcome (.message env senderRtid message) rt' := by
  have hstale (kind : TimerKind) {requestMsgId : UInt32}
      (hid : requestMsgId ≠ ((rt.actors ptr).timer kind).requestMsgId)
      (hrequest : message.body.request = some (kind, requestMsgId)) (hsame : some rt = some rt') :
      rt.Outcome (.message env senderRtid message) rt' := by
    cases hsame
    exact .rest _ (.stale env senderRtid message ptr kind requestMsgId hrecv hptr hrequest hid)
  unfold matchFlowActor at h
  split at h
  · next requestMsgId targetId hbody =>
    unfold startMigrationResponse at h
    split at h
    · next hid => exact hstale .migration hid (by rw [hbody]; rfl) h
    · next hid =>
      split at h
      · next hset =>
        rw [not_not.1 hid] at hbody
        have hforward := fun sent ↦ Outcome.ask _ _ _ ptr _
          (.forward env senderRtid message ptr targetId sent ⟨hrecv, hptr, hset⟩ hbody)
        obtain ⟨-, sent, rfl⟩ := sendRequest_spec (((rt.invalidate ptr .migration).modifyActor ptr fun actor ↦
          { actor with migrationTargetActorId := targetId }).routeRequest ptr rt.migration.targetRtId) h
        rw [routeRequest, actors_modifyActor, actors_invalidate]
        exact hforward sent
      · cases h
  · next requestMsgId succeed hbody =>
    unfold changeVswitchRouteResponse at h
    split at h
    · next hid => exact hstale .migration hid (by rw [hbody]; rfl) h
    · next hid =>
      split at h
      · next hset =>
        rw [not_not.1 hid] at hbody
        dsimp only at h
        rw [actors_invalidate] at h
        split at h
        · next hdone =>
          cases h
          exact .abandon _ _ ptr (.response env senderRtid message ptr succeed ⟨hrecv, hptr, hset⟩ hbody hdone)
        · next hforward => exact shipFlowState_outcome ⟨hrecv, hptr, hset⟩ hbody hforward h
      · cases h
  · next states hbody =>
    unfold migrateFlowState at h
    dsimp only at h
    split at h
    · next hset =>
      obtain ⟨sent, hsent, h⟩ := bind_eq_some_iff.1 h
      rw [(sendMessage_spec hsent).1] at h
      exact .arrive env senderRtid message ptr states sent.1 rt' ⟨hrecv, hptr, hset⟩ hbody h
    · cases h
  · next requestMsgId hbody =>
    unfold migrateFlowStateResponse at h
    split at h
    · next hid => exact hstale .migration hid (by rw [hbody]; rfl) h
    · next hid =>
      split at h
      · next hset =>
        rw [not_not.1 hid] at hbody
        dsimp only at h
        rw [removeFlow_spec h, actors_modifyActor, actors_invalidate]
        exact .complete env senderRtid message ptr ⟨hrecv, hptr, hset⟩ hbody
      · cases h
  · next requestMsgId succeed hbody =>
    rcases replicaRecoverResponse_spec h with ⟨hid, rfl⟩ | ⟨rfl, hset, rfl⟩
    · exact hstale .replication hid (by rw [hbody]; rfl) rfl
    · exact .recovered env senderRtid message ptr succeed ⟨hrecv, hptr, hset⟩ hbody
  · cases h

theorem nfs_drained (rt : Runtime σ τ) (ptr : ℕ) : (rt.drained ptr).nfs = rt.nfs := by
  unfold drained
  split <;> rfl

theorem checkIdle_outcome (harmed : ((rt.actors ptr).timer kind).Armed)
    (htype : ((rt.actors ptr).timer kind).msgType = .checkIdle) (h : rt.checkIdle ptr = some rt') :
    rt.Outcome (.fire env ptr kind) rt' := by
  have hagain (hstays : ¬rt.Leaves ptr) (htimer : ((rt.invalidate ptr .idle).modifyActor ptr fun actor ↦
        { actor with sampleCounter := actor.pktCounter }).addTimer ptr .idle idleMessageId .checkIdle =
          some rt') : rt.Outcome (.fire env ptr kind) rt' := by
    rw [(addTimer_spec htimer).2]
    simp only [modifyActor, update_idem, update_self]
    exact .idleAgain env ptr kind harmed htype hstays
  unfold checkIdle at h
  dsimp only at h
  rw [actors_invalidate] at h
  split at h
  · next heven =>
    have hcode : (rt.actors ptr).currentState.code % 2 = 0 := heven
    exact hagain (fun hleaves ↦ by have hodd := hleaves.1; omega) h
  · next hodd =>
    have hcode : ¬(rt.actors ptr).currentState.code % 2 = 0 := hodd
    split at h
    · next hsame =>
      have hleave := Outcome.leave env ptr kind harmed htype ⟨by omega, hsame⟩
      rw [removeFlow_spec h]
      rw [left, ← nfs_drained rt ptr] at hleave
      exact hleave
    · next hdiffer => exact hagain (fun hleaves ↦ hdiffer hleaves.2) h

theorem trigger_outcome (h : rt.trigger env ptr kind = some rt') : rt.Outcome (.fire env ptr kind) rt' := by
  unfold trigger at h
  dsimp only at h
  split at h
  · cases h
  · next harmed =>
    split at h
    · next htype => exact checkIdle_outcome harmed htype h
    · next htype =>
      cases h
      exact .abandon _ _ ptr (.timeout env ptr kind harmed (.inl htype))
    · next htype =>
      obtain ⟨peer, hpeer, h⟩ := bind_eq_some_iff.1 h
      rw [actors_invalidate] at hpeer
      have hup : (env.reliables (rt.actors ptr).inputHeader.destRtid).any PeerView.connectionUp =
          peer.connectionUp := congrArg (Option.any _) hpeer
      split at h
      · next hconnected =>
        obtain ⟨sent, rfl⟩ := failureHandling_spec h
        rw [routeRequest, actors_invalidate]
        exact .ask _ _ _ ptr _ (.back env ptr kind sent harmed (.inr ⟨htype, hup.trans hconnected⟩))
      · next hdown =>
        cases h
        exact .abandon _ _ ptr
          (.timeout env ptr kind harmed (.inr ⟨htype, hup.trans (Bool.eq_false_of_not_eq_true hdown)⟩))
    · next htype =>
      obtain ⟨sent, rfl⟩ := failureHandling_spec h
      rw [routeRequest, actors_invalidate]
      exact .ask _ _ _ ptr _ (.back env ptr kind sent harmed (.inl htype))
    · next htype =>
      obtain ⟨peer, hpeer, h⟩ := bind_eq_some_iff.1 h
      rw [actors_invalidate] at hpeer
      split at h
      · next hconnected =>
        obtain ⟨-, sent, rfl⟩ := startRecover_spec h
        rw [recoveryRequest, actors_invalidate]
        exact .ask _ _ _ ptr _
          (.recoverAgain env ptr kind sent harmed htype ((congrArg (Option.any _) hpeer).trans hconnected))
      · next hdown =>
        cases h
        exact .notRecovered env ptr kind peer harmed htype hpeer (Bool.eq_false_of_not_eq_true hdown)

theorem migrationIteration_outcome (h : rt.migrationIteration env = some rt') :
    rt.Outcome (.migrationIteration env) rt' := by
  unfold migrationIteration at h
  split at h
  · next hstop =>
    cases h
    exact .rest _ (.noMigration env (if_pos hstop))
  · next hgo =>
    obtain ⟨first, hfirst, h⟩ := bind_eq_some_iff.1 h
    have hpick : rt.migrationPick = first := by
      rw [migrationPick, if_neg hgo, hfirst]
      rfl
    cases first with
    | none =>
      cases h
      exact .tally _ _ (.skipMigration env (not_or.1 hgo).1 hpick)
    | some ptr =>
      obtain ⟨unlinked, hunlink, h⟩ := bind_eq_some_iff.1 h
      rw [unlink_spec hunlink] at h
      change (rt.departed ptr).startMigration env ptr rt.migration.targetRtId = some rt' at h
      unfold startMigration at h
      split at h
      · next hhave =>
        cases h
        exact .abandon _ _ ptr (.refuse env ptr hpick hhave)
      · next hhave =>
        obtain ⟨hidle, sent, rfl⟩ :=
          sendRequest_spec (((rt.departed ptr).enter ptr .migrationSource).creationRequest ptr) h
        change ¬(((rt.departed ptr).enter ptr .migrationSource).actors ptr).migrationTimer.Armed at hidle
        rw [actors_enter] at hidle
        rw [creationRequest, actors_enter]
        exact .ask _ _ _ ptr _ (.depart env ptr sent hpick hhave hidle)

theorem recoveryIteration_outcome (h : rt.recoveryIteration env = some rt') :
    rt.Outcome (.recoveryIteration env) rt' := by
  unfold recoveryIteration at h
  split at h
  · next hstop =>
    cases h
    exact .rest _ (.noRecovery env (if_pos hstop))
  · next hgo =>
    obtain ⟨head, hhead, h⟩ := bind_eq_some_iff.1 h
    obtain ⟨first, hfirst, h⟩ := bind_eq_some_iff.1 h
    have hpick : rt.recoveryPick = first := by
      rw [recoveryPick, if_neg hgo, hhead, Option.bind_some, hfirst]
      rfl
    cases first with
    | none =>
      cases h
      split
      · next hnobody => exact .tally _ _ (.recoveryDone env hpick hnobody)
      · exact .rest _ (.noRecovery env hpick)
    | some ptr =>
      obtain ⟨unlinked, hunlink, h⟩ := bind_eq_some_iff.1 h
      rw [unlink_spec hunlink] at h
      obtain ⟨started, hstarted, rfl⟩ := map_eq_some_iff.1 h
      obtain ⟨hidle, sent, rfl⟩ := startRecover_spec hstarted
      exact .ask _ _ _ ptr _ (.recover env ptr sent hpick hidle)

/-- Every step of a runtime has one of the listed outcomes. -/
theorem step_outcome (h : rt.step input = some rt') : rt.Outcome input rt' := by
  cases input with
  | packet => exact schedule_outcome h
  | message env senderRtid message =>
    change rt.matchMessage env senderRtid message = some rt' at h
    unfold matchMessage at h
    split at h
    · next hrecv => exact matchCoordinator_outcome hrecv h
    · next hrecv =>
      split at h
      · next hnone =>
        cases h
        exact .rest _ (.unknown env senderRtid message hrecv hnone)
      · next ptr hptr => exact matchFlowActor_outcome hrecv hptr h
  | fire => exact trigger_outcome h
  | migrationIteration => exact migrationIteration_outcome h
  | recoveryIteration => exact recoveryIteration_outcome h
  | beginSchedulerBatch | beginControlBatch | migrateTo | recover | addStorage | removeStorage =>
    cases h
    exact .tally _ _ (by constructor)

theorem emit_eq (h : rt.emit pkt = some rt') : ∃ batch, rt' = { rt with ecSchedulerBatch := batch } := by
  obtain ⟨batch, -, rfl⟩ := map_eq_some_iff.1 h
  exact ⟨batch, rfl⟩

theorem addPktSetGate_eq {gate : UInt16} (h : rt.addPktSetGate pkt gate = some rt') :
    rt' = { rt with gb := rt.gb ++ [(pkt, gate)] } := by
  unfold addPktSetGate at h
  split at h <;> cases h
  rfl

/-- An actor that takes a packet does so in one of the listed ways. -/
theorem pktMsg_takes (h : rt.pktMsg env ptr pkt = some rt') : rt.Takes env ptr pkt rt' := by
  unfold pktMsg at h
  split at h
  · next hstate =>
    cases h
    unfold pktMigrationTargetProcessing
    dsimp only
    split
    · next hpop => exact .full hstate hpop
    · next cell ring hpop => exact .keep cell ring hstate hpop
  · next hstate =>
    cases h
    exact .late hstate
  · next hnotTarget hnotAfter =>
    have hprocesses : (rt.actors ptr).currentState.processes = true := by
      cases hstate : (rt.actors ptr).currentState <;> simp_all [FlowState.processes]
    unfold pktNormalNfProcessing at h
    dsimp only at h
    split at h
    · next hreplica =>
      change (rt.ran ptr pkt).replicationOutput env ptr (rt.processed ptr pkt) _ = some rt' at h
      unfold replicationOutput at h
      dsimp only at h
      rw [ran, counted, actors_modifyActor, ← counted, ← ran] at h
      split at h
      · next hconnection =>
        obtain ⟨batch, rfl⟩ := emit_eq h
        exact .disconnect batch hprocesses hreplica hconnection
      · next dest hconnection _ =>
        have htakes := @Takes.replicate _ _ rt env ptr pkt dest hprocesses hreplica hconnection
        cases hok : env.sendOk <;> rw [hok] at h htakes <;> cases h <;> exact htakes
      · cases h
    · next hreplica =>
      unfold noReplicationOutput at h
      split at h
      · obtain ⟨batch, rfl⟩ := emit_eq h
        exact .emit batch hprocesses hreplica
      · cases h

/-- The message of a replica is ignored, or loaded and its packet passed on. -/
theorem repFsPktMsg_cases {states : ℕ → σ} (h : rt.repFsPktMsg ptr states pkt = some rt') :
    ((rt.actors ptr).replicationState ≠ .isReplica ∧ rt' = rt) ∨
      (rt.actors ptr).replicationState = .isReplica ∧ rt' = { rt with
          nfs := NfTable.loadChain (fun nf _ ↦ nf) states 0 (rt.actors ptr).chain rt.nfs
          gb := rt.gb ++ [(pkt, 1)] }.counted ptr := by
  unfold repFsPktMsg at h
  split at h
  · next hreplica => exact .inl ⟨hreplica, (Option.some.inj h).symm⟩
  · next hreplica => exact .inr ⟨not_not.1 hreplica, addPktSetGate_eq h⟩

/-- A replayed packet is handed over and its cell given back. -/
theorem replayPacket_eq {cell : ℕ × Packet} (h : rt.replayPacket ptr cell = some rt') :
    ∃ gb gpCollector, gb.length + gpCollector.length = rt.gb.length + rt.gpCollector.length + 1 ∧
      rt' = { rt.ran ptr cell.2 with
        gb := gb
        gpCollector := gpCollector
        migration := { rt.migration with targetBufferSize := rt.migration.targetBufferSize + 1 }
        collectiveBuffer := (rt.collectiveBuffer.push cell.1).2 } := by
  obtain ⟨output, houtput, rfl⟩ := map_eq_some_iff.1 h
  split at houtput
  · rw [addPktSetGate_eq houtput]
    exact ⟨rt.gb ++ [_], rt.gpCollector, by rw [List.length_append, List.length_singleton]; omega, rfl⟩
  · cases houtput
    exact ⟨rt.gb, rt.gpCollector ++ [_], by rw [List.length_append, List.length_singleton]; omega, rfl⟩

end Runtime

end NfvActor.Actor
