import Mathlib.Tactic
import NfvActor.Actor.Step

/-!
# The ledger of a runtime

The ledger is the bookkeeping of a runtime: which actors and slots are handed out, what the tables and lists
hold, how far each actor is with migration and recovery, and what the counters say. `Effect` lists all that a
step can do to it, and `Runtime.step_effect` connects the two.
-/

namespace NfvActor.Actor

open NfvActor.Foundation
open NfvActor.Reliable (Packet)
open Function

/-- What the ledger knows of a flow actor. -/
structure Card where
  actorId : UInt32
  flowKey : FlowKey
  coordinatorSet : Bool
  chain : List ChainSlot
  idleTimer : ActorTimer
  migrationTimer : ActorTimer
  replicationTimer : ActorTimer
  currentState : FlowState
  replicationState : ReplicationState

def Card.timer (card : Card) : TimerKind → ActorTimer
  | .idle => card.idleTimer
  | .migration => card.migrationTimer
  | .replication => card.replicationTimer

def Card.setTimer (card : Card) (kind : TimerKind) (timer : ActorTimer) : Card :=
  match kind with
  | .idle => { card with idleTimer := timer }
  | .migration => { card with migrationTimer := timer }
  | .replication => { card with replicationTimer := timer }

def FlowActor.card (actor : FlowActor) : Card where
  actorId := actor.actorId
  flowKey := actor.flowKey
  coordinatorSet := actor.coordinatorSet
  chain := actor.chain
  idleTimer := actor.idleTimer
  migrationTimer := actor.migrationTimer
  replicationTimer := actor.replicationTimer
  currentState := actor.currentState
  replicationState := actor.replicationState

/-- The migration counters that have to add up. -/
structure MigrationAccount where
  qouta : UInt64
  outgoing : UInt64
  total : UInt64
  successful : UInt64
  failed : UInt64
  null : UInt64

def MigrationStats.account (stats : MigrationStats) : MigrationAccount where
  qouta := stats.qouta
  outgoing := stats.outgoing
  total := stats.total
  successful := stats.successful
  failed := stats.failed
  null := stats.null

structure Ledger where
  allocator : RingBuffer ℕ
  nextFlowActorId : UInt32
  cards : ℕ → Card
  htable : FlowKey → Option ℕ
  actoridHtable : UInt32 → Option ℕ
  serviceChain : List ℕ
  free : FreeSlots
  links : Links ListNode
  relinked : Bool
  replicaFlowLists : UInt32 → Option ℕ
  nextHead : ℕ
  migration : MigrationAccount
  recovery : RecoveryStats

namespace Runtime

variable {σ τ : Type}

def ledger (rt : Runtime σ τ) : Ledger where
  allocator := rt.allocator
  nextFlowActorId := rt.nextFlowActorId
  cards := fun ptr ↦ (rt.actors ptr).card
  htable := rt.htable
  actoridHtable := rt.actoridHtable
  serviceChain := rt.serviceChain
  free := NfTable.free rt.nfs
  links := rt.links
  relinked := rt.relinked
  replicaFlowLists := rt.replicaFlowLists
  nextHead := rt.nextHead
  migration := rt.migration.account
  recovery := rt.recovery

end Runtime

namespace Ledger

open NfvActor.Actor.Runtime (deadendFlowActor)

variable (ledger : Ledger)

def setCard (ptr : ℕ) (card : Card) : Ledger :=
  { ledger with cards := update ledger.cards ptr card }

def modifyCard (ptr : ℕ) (change : Card → Card) : Ledger :=
  ledger.setCard ptr (change (ledger.cards ptr))

def addTail (ledger : Ledger) (head : ListNode) (ptr : ℕ) : Ledger :=
  { ledger with
    links := ledger.links.addTail head (.actor ptr)
    relinked := ledger.relinked || ledger.links.next (.actor ptr) != .actor ptr }

def unlink (ptr : ℕ) : Ledger :=
  { ledger with links := ledger.links.del (.actor ptr) }

def bind (key : FlowKey) (ptr : ℕ) : Ledger :=
  { ledger with
    htable := update ledger.htable key (some ptr)
    actoridHtable := update ledger.actoridHtable (ledger.cards ptr).actorId (some ptr) }

/-- The allocator hands out an actor, which leaves the given ring behind. -/
def occupy (ptr : ℕ) (ring : RingBuffer ℕ) : Ledger :=
  { ledger with allocator := ring, nextFlowActorId := ledger.nextFlowActorId + 1 }.modifyCard ptr
    fun card ↦ { card with actorId := ledger.nextFlowActorId }

/-- An init message: slots are taken, the state fields and the idle timer are set. -/
def start (ptr : ℕ) (key : FlowKey) (state : FlowState) (replication : ReplicationState) : Ledger :=
  let taken := FreeSlots.take ledger.serviceChain [] ledger.free
  { ledger with free := taken.2 }.modifyCard ptr fun card ↦
    { card with
      flowKey := key
      coordinatorSet := true
      chain := taken.1
      idleTimer := ⟨idleMessageId, .checkIdle⟩
      currentState := state
      replicationState := replication }

/-- A new flow: an actor is handed out, linked, initialised and entered in the tables. -/
def enroll (ptr : ℕ) (ring : RingBuffer ℕ) (head : ListNode) (key : FlowKey)
    (state : FlowState) (replication : ReplicationState) : Ledger :=
  ((((ledger.occupy ptr ring).addTail head ptr).start ptr key state replication).bind key ptr)

/-- `invalidate` on one of the timers of an actor. -/
def disarm (ptr : ℕ) (kind : TimerKind) : Ledger :=
  ledger.modifyCard ptr fun card ↦ card.setTimer kind (card.timer kind).invalidate

/-- `remove_flow_t`. -/
def remove (ptr : ℕ) : Ledger :=
  let card := ledger.cards ptr
  let ledger' := { ledger with
    htable := update ledger.htable card.flowKey none
    actoridHtable := update ledger.actoridHtable card.actorId none }
  if ptr = deadendFlowActor then
    ledger'
  else
    { ledger' with
      links := ledger.links.del (.actor ptr)
      allocator := (ledger.allocator.push ptr).2
    }.setCard ptr { card with
      actorId := invalidFlowActorId
      idleTimer := card.idleTimer.invalidate
      migrationTimer := card.migrationTimer.invalidate
      replicationTimer := card.replicationTimer.invalidate }

/-- The slots of an actor go back to the free rings. -/
def release (ledger : Ledger) (ptr : ℕ) : Ledger :=
  { ledger with free := ledger.free.release (ledger.cards ptr).chain }

/-- An actor gives up migrating and goes to the tail of the active list. -/
def giveUp (ptr : ℕ) : Ledger :=
  let ledger' := (ledger.modifyCard ptr fun card ↦
    { card with currentState := .normalProcessing }).addTail .activeFlows ptr
  { ledger' with migration := { ledger.migration with
      outgoing := ledger.migration.outgoing - 1
      failed := ledger.migration.failed + 1 } }

/-- An actor waits for the answer to a request of the migration protocol. -/
def request (ptr : ℕ) (state : FlowState) (timer : ActorTimer) : Ledger :=
  ledger.modifyCard ptr fun card ↦ { card with currentState := state, migrationTimer := timer }

/-- The migration of an actor has succeeded. -/
def settle (ptr : ℕ) : Ledger :=
  let ledger' := (ledger.disarm ptr .migration).modifyCard ptr fun card ↦
    { card with currentState := .normalProcessing }
  { ledger' with migration := { ledger.migration with
      outgoing := ledger.migration.outgoing - 1
      successful := ledger.migration.successful + 1 } }

/-- The migration of an actor has succeeded and its flow is removed. -/
def complete (ptr : ℕ) : Ledger :=
  ((ledger.settle ptr).disarm ptr .idle).remove ptr

/-- A flow has been migrated in. -/
def arrive (ptr : ℕ) : Ledger :=
  (ledger.modifyCard ptr fun card ↦ { card with currentState := .normalProcessing }).addTail
    .activeFlows ptr

/-- `coordinator_mp` takes an actor off the active list to migrate it. -/
def depart (ptr : ℕ) : Ledger :=
  { ledger.unlink ptr with migration := { ledger.migration with
      qouta := ledger.migration.qouta - 1
      outgoing := ledger.migration.outgoing + 1 } }

/-- `coordinator_mp` finds no active flow. -/
def skipMigration : Ledger :=
  { ledger with migration := { ledger.migration with
      qouta := ledger.migration.qouta - 1
      null := ledger.migration.null + 1 } }

/-- An accepted `migrate_to`. -/
def migrateTo (migrationQouta : UInt64) : Ledger :=
  { ledger with migration := ⟨migrationQouta, 0, migrationQouta, 0, 0, 0⟩ }

/-- A flow stops having a replica. -/
def dropReplica (ptr : ℕ) : Ledger :=
  ledger.modifyCard ptr fun card ↦ { card with replicationState := .noReplica }

/-- A replica waits for the answer to `replica_recover_t`. -/
def awaitRecovery (ptr : ℕ) (requestMsgId : UInt32) : Ledger :=
  ledger.modifyCard ptr fun card ↦
    { card with replicationTimer := ⟨requestMsgId, .replicaRecoverTimeout⟩ }

/-- The answer to `replica_recover_t`, or its absence, ends a recovery. -/
def endRecovery (ptr : ℕ) (succeeded : Bool) : Ledger :=
  let ledger' := ((ledger.disarm ptr .replication).dropReplica ptr).addTail .activeFlows ptr
  let recovery := ledger.recovery
  { ledger' with recovery := { recovery with
      successful := if succeeded then recovery.successful + 1 else recovery.successful
      unsuccessful := if succeeded then recovery.unsuccessful else recovery.unsuccessful + 1
      outGoing := recovery.outGoing - 1 } }

/-- Replaces the recovery counters. -/
def setRecovery (recovery : RecoveryStats) : Ledger :=
  { ledger with recovery := recovery }

/-- `add_storage` for a peer that is not connected yet. -/
def addStorage (runtimeId : UInt32) : Ledger :=
  match ledger.replicaFlowLists runtimeId with
  | some head => { ledger with links := ledger.links.itemInit (.replicaFlows head) }
  | none =>
    { ledger with
      replicaFlowLists := update ledger.replicaFlowLists runtimeId (some ledger.nextHead)
      nextHead := ledger.nextHead + 1
      links := ledger.links.itemInit (.replicaFlows ledger.nextHead) }

/-- `remove_storage` for the last role of a peer. -/
def removeStorage (runtimeId : UInt32) : Ledger :=
  match ledger.replicaFlowLists runtimeId with
  | some _ => { ledger with
      replicaFlowLists := update ledger.replicaFlowLists runtimeId none }
  | none => ledger

end Ledger

/-! ## The effects of a step -/

/-- The timer that triggers a message, in every use of `add_timer`. -/
def TimerMessage.kind : TimerMessage → TimerKind
  | checkIdle => .idle
  | startMigrationTimeout => .migration
  | changeVswitchRouteTimeout => .migration
  | migrateFlowStateTimeout => .migration
  | replicaRecoverTimeout => .replication

/-- The timer that a response is compared with, and its `request_msg_id`. -/
def MessageBody.request {σ : Type} : MessageBody σ → Option (TimerKind × UInt32)
  | startMigrationResponse requestMsgId _ => some (.migration, requestMsgId)
  | changeVswitchRouteResponse requestMsgId _ => some (.migration, requestMsgId)
  | migrateFlowStateResponse requestMsgId => some (.migration, requestMsgId)
  | replicaRecoverResponse requestMsgId _ => some (.replication, requestMsgId)
  | _ => none

/-- The timer is armed. -/
def ActorTimer.Armed (timer : ActorTimer) : Prop := timer.requestMsgId ≠ invalidMessageId

instance (timer : ActorTimer) : Decidable timer.Armed := inferInstanceAs (Decidable (_ ≠ _))

/-- An actor that no init message has reached: no timer is armed, no slot is taken. -/
structure Card.Blank (card : Card) : Prop where
  coordinator : card.coordinatorSet = false
  state : card.currentState = .uninitialised
  replication : card.replicationState = .noReplica
  chain : card.chain = []
  timers : ∀ kind, ¬(card.timer kind).Armed

namespace Ledger

open NfvActor.Actor.Runtime (deadendFlowActor)

variable {σ : Type}

/-- The deadend actor is as the allocator handed it out. -/
def DeadendBlank (ledger : Ledger) : Prop := (ledger.cards deadendFlowActor).Blank

/-- A message reaches a flow actor through the table of actor ids. -/
def Delivers (ledger : Ledger) (message : Message σ) (ptr : ℕ) : Prop :=
  message.recvActorId ≠ coordinatorActorId ∧
    ledger.actoridHtable message.recvActorId = some ptr ∧ (ledger.cards ptr).coordinatorSet = true

/-- A wait for an answer ends: the timer fires, or a response carries the id in the timer. -/
inductive Answers (ledger : Ledger) : Input σ → ℕ → TimerKind → Prop
  | timeout (env : Environment σ) (ptr : ℕ) (kind : TimerKind) :
      ((ledger.cards ptr).timer kind).Armed →
      Answers ledger (.fire env ptr kind) ptr ((ledger.cards ptr).timer kind).msgType.kind
  | response (env : Environment σ) (senderRtid : UInt32) (message : Message σ) (ptr : ℕ)
      (kind : TimerKind) : ledger.Delivers message ptr →
      message.body.request = some (kind, ((ledger.cards ptr).timer kind).requestMsgId) →
      Answers ledger (.message env senderRtid message) ptr kind

/-- What a step can do to the ledger. -/
inductive Effect (ledger : Ledger) : Input σ → Ledger → Prop
  | unchanged (input : Input σ) : Effect ledger input ledger
  | dropReplica (env : Environment σ) (pkt : Packet) (ptr : ℕ) :
      ledger.htable (flowKeyOf pkt) = some ptr →
      (ledger.cards ptr).replicationState = .haveReplica →
      Effect ledger (.packet env pkt) (ledger.dropReplica ptr)
  | newFlow (env : Environment σ) (pkt : Packet) (ptr : ℕ) (ring : RingBuffer ℕ)
      (replication : ReplicationState) : ledger.htable (flowKeyOf pkt) = none →
      ledger.allocator.pop = some (ptr, ring) → replication ≠ .isReplica →
      (replication = .haveReplica → env.replicaItem.isSome = true) →
      Effect ledger (.packet env pkt)
        (ledger.enroll ptr ring .activeFlows (flowKeyOf pkt) .normalProcessing replication)
  | newTarget (env : Environment σ) (senderRtid : UInt32) (message : Message σ)
      (inputHeader outputHeader : EtherHeader) (key : FlowKey) (ptr : ℕ) (ring : RingBuffer ℕ) :
      message.recvActorId = coordinatorActorId →
      message.body = .createMigrationTargetActor inputHeader outputHeader key →
      ledger.allocator.pop = some (ptr, ring) →
      Effect ledger (.message env senderRtid message)
        (ledger.enroll ptr ring .activeFlows key .migrationTarget .noReplica)
  | newReplica (env : Environment σ) (senderRtid : UInt32) (message : Message σ)
      (inputHeader outputHeader : EtherHeader) (key : FlowKey) (states : ℕ → σ) (pkt : Packet) (ptr : ℕ)
      (ring : RingBuffer ℕ) (head : ℕ) :
      message.recvActorId = coordinatorActorId →
      message.body = .replication inputHeader outputHeader key states pkt →
      ledger.htable key = none → ledger.allocator.pop = some (ptr, ring) →
      ledger.replicaFlowLists senderRtid = some head →
      Effect ledger (.message env senderRtid message)
        (ledger.enroll ptr ring (.replicaFlows head) key .normalProcessing .isReplica)
  | bindDeadend (env : Environment σ) (senderRtid : UInt32) (message : Message σ)
      (inputHeader outputHeader : EtherHeader) (key : FlowKey) (states : ℕ → σ) (pkt : Packet) :
      message.recvActorId = coordinatorActorId →
      message.body = .replication inputHeader outputHeader key states pkt →
      ledger.htable key = none → ledger.allocator.pop = none →
      Effect ledger (.message env senderRtid message) (ledger.bind key deadendFlowActor)
  | idleAgain (env : Environment σ) (ptr : ℕ) (kind : TimerKind) :
      ((ledger.cards ptr).timer kind).Armed →
      ((ledger.cards ptr).timer kind).msgType = .checkIdle →
      Effect ledger (.fire env ptr kind)
        (ledger.modifyCard ptr fun card ↦ { card with idleTimer := ⟨idleMessageId, .checkIdle⟩ })
  | expire (env : Environment σ) (ptr : ℕ) (kind : TimerKind) :
      ((ledger.cards ptr).timer kind).Armed →
      ((ledger.cards ptr).timer kind).msgType = .checkIdle →
      (ledger.cards ptr).currentState.code % 2 = 1 →
      Effect ledger (.fire env ptr kind) (((ledger.disarm ptr .idle).release ptr).remove ptr)
  | skipMigration (env : Environment σ) : ledger.migration.qouta ≠ 0 →
      Effect ledger (.migrationIteration env) ledger.skipMigration
  | refuse (env : Environment σ) (ptr : ℕ) : ledger.migration.qouta ≠ 0 →
      ledger.links.peekFirst .activeFlows = some (.actor ptr) →
      (ledger.cards ptr).replicationState = .haveReplica →
      Effect ledger (.migrationIteration env) ((ledger.depart ptr).giveUp ptr)
  | depart (env : Environment σ) (ptr : ℕ) (requestMsgId : UInt32) : ledger.migration.qouta ≠ 0 →
      ledger.links.peekFirst .activeFlows = some (.actor ptr) →
      ¬(ledger.cards ptr).migrationTimer.Armed → (ledger.cards ptr).replicationState ≠ .haveReplica →
      Effect ledger (.migrationIteration env)
        ((ledger.depart ptr).request ptr .migrationSource ⟨requestMsgId, .startMigrationTimeout⟩)
  | abandon (input : Input σ) (ptr : ℕ) : ledger.Answers input ptr .migration →
      Effect ledger input ((ledger.disarm ptr .migration).giveUp ptr)
  | request (input : Input σ) (ptr : ℕ) (state : FlowState) (timer : ActorTimer) :
      ledger.Answers input ptr .migration →
      state = (ledger.cards ptr).currentState ∨ state = .failureProcessing ∨
        state = .afterRouteChange →
      timer.msgType.kind = .migration → Effect ledger input (ledger.request ptr state timer)
  | arrive (env : Environment σ) (senderRtid : UInt32) (message : Message σ) (ptr : ℕ)
      (states : ℕ → σ) : ledger.Delivers message ptr → message.body = .migrateFlowState states →
      Effect ledger (.message env senderRtid message) (ledger.arrive ptr)
  | complete (env : Environment σ) (senderRtid : UInt32) (message : Message σ) (ptr : ℕ) :
      ledger.Delivers message ptr →
      message.body = .migrateFlowStateResponse (ledger.cards ptr).migrationTimer.requestMsgId →
      Effect ledger (.message env senderRtid message) (ledger.complete ptr)
  | startRecovery (env : Environment σ) (ptr head : ℕ) (requestMsgId : UInt32) :
      ledger.links.peekFirst (.replicaFlows head) = some (.actor ptr) →
      ¬(ledger.cards ptr).replicationTimer.Armed →
      Effect ledger (.recoveryIteration env)
        (((ledger.unlink ptr).awaitRecovery ptr requestMsgId).setRecovery
          { ledger.recovery with outGoing := ledger.recovery.outGoing + 1 })
  | recoveryDone (env : Environment σ) :
      Effect ledger (.recoveryIteration env)
        (ledger.setRecovery { ledger.recovery with storageRtid := 0 })
  | retryRecovery (input : Input σ) (ptr : ℕ) (requestMsgId : UInt32) :
      ledger.Answers input ptr .replication →
      Effect ledger input (ledger.awaitRecovery ptr requestMsgId)
  | endRecovery (input : Input σ) (ptr : ℕ) (succeeded : Bool) :
      ledger.Answers input ptr .replication → Effect ledger input (ledger.endRecovery ptr succeeded)
  | migrateTo (migrationQouta : UInt64) (runtimeId : UInt32) : ledger.migration.qouta = 0 →
      Effect ledger (.migrateTo migrationQouta runtimeId) (ledger.migrateTo migrationQouta)
  | recover (runtimeId : UInt32) :
      Effect ledger (.recover runtimeId) (ledger.setRecovery { ledger.recovery with
        storageRtid := runtimeId
        iteration := ledger.recovery.iteration + 1
        successful := 0
        unsuccessful := 0 })
  | addStorage (runtimeId : UInt32) :
      Effect ledger (.addStorage runtimeId) (ledger.addStorage runtimeId)
  | removeStorage (runtimeId : UInt32) :
      Effect ledger (.removeStorage runtimeId) (ledger.removeStorage runtimeId)

end Ledger

end NfvActor.Actor
