import Mathlib.Tactic
import NfvActor.Foundation.Transition
import NfvActor.Actor.Handlers

/-!
# The steps of a runtime

A run is a sequence of steps: a packet is scheduled, a reliable message is matched to its handler, an armed
timer fires, a loop of `coordinator_mp::RunTask` makes an iteration, or a command is handled. The environment
chooses the step and its answers: any armed timer may fire, and any message may arrive from any peer.
-/

namespace NfvActor.Actor

open NfvActor.Foundation
open NfvActor.Reliable (Packet)

/-- The steps of a runtime. -/
inductive Input (σ : Type)
  | beginSchedulerBatch
  | beginControlBatch
  | packet (env : Environment σ) (pkt : Packet)
  | message (env : Environment σ) (senderRtid : UInt32) (message : Message σ)
  | fire (env : Environment σ) (ptr : ℕ) (kind : TimerKind)
  | migrationIteration (env : Environment σ)
  | recoveryIteration (env : Environment σ)
  | migrateTo (migrationQouta : UInt64) (runtimeId : UInt32)
  | recover (runtimeId : UInt32)
  | addStorage (runtimeId : UInt32)
  | removeStorage (runtimeId : UInt32)

/-- The replica that a step offers to a new flow. -/
def Input.replicaItem {σ : Type} : Input σ → Option UInt32
  | .packet env _ => env.replicaItem
  | _ => none

namespace Runtime

variable {σ τ : Type} (rt : Runtime σ τ)

/-- The body of the loop over data packets in the two schedulers. -/
def schedule (env : Environment σ) (pkt : Packet) : Option (Runtime σ τ) :=
  let key := flowKeyOf pkt
  match rt.htable key with
  | some ptr => rt.pktMsg env ptr pkt
  | none =>
    match rt.allocate with
    | none => (rt.bind key deadendFlowActor).pktMsg env deadendFlowActor pkt
    | some (ptr, rt) =>
      ((rt.addTail .activeFlows ptr).flowActorInitWithPkt env ptr key pkt).bind fun rt ↦
        (rt.bind key ptr).pktMsg env ptr pkt

/-- The messages for the coordinator in `process_reliable_msg::match`. -/
def matchCoordinator (env : Environment σ) (senderRtid : UInt32) (message : Message σ) : Option (Runtime σ τ) :=
  match message.body with
  | .ping => rt.ping env senderRtid
  | .pong => some rt
  | .createMigrationTargetActor inputHeader outputHeader key =>
    rt.createMigrationTargetActor env senderRtid message.sendActorId message.msgId inputHeader
      outputHeader key
  | .changeVswitchRoute key newOutputRtId =>
    rt.changeVswitchRoute env senderRtid message.sendActorId message.msgId key newOutputRtId
  | .replication inputHeader outputHeader key states pkt =>
    rt.replicationMsg senderRtid inputHeader outputHeader key states pkt
  | .replicaRecover key newOutputRtId =>
    rt.replicaRecover env senderRtid message.sendActorId message.msgId key newOutputRtId
  | _ => none

/-- The messages for a flow actor in `process_reliable_msg::match`. -/
def matchFlowActor (env : Environment σ) (senderRtid : UInt32) (ptr : ℕ)
    (message : Message σ) : Option (Runtime σ τ) :=
  match message.body with
  | .startMigrationResponse requestMsgId migrationTargetActorId =>
    rt.startMigrationResponse env ptr requestMsgId migrationTargetActorId
  | .changeVswitchRouteResponse requestMsgId changeRouteSucceed =>
    rt.changeVswitchRouteResponse env ptr requestMsgId changeRouteSucceed
  | .migrateFlowState states =>
    rt.migrateFlowState env ptr senderRtid message.sendActorId message.msgId states
  | .migrateFlowStateResponse requestMsgId => rt.migrateFlowStateResponse ptr requestMsgId
  | .replicaRecoverResponse requestMsgId _ => rt.replicaRecoverResponse ptr requestMsgId
  | _ => none

/-- `process_reliable_msg::match`. -/
def matchMessage (env : Environment σ) (senderRtid : UInt32) (message : Message σ) :
    Option (Runtime σ τ) :=
  if message.recvActorId = coordinatorActorId then
    rt.matchCoordinator env senderRtid message
  else
    match rt.actoridHtable message.recvActorId with
    | none => some rt
    | some ptr => rt.matchFlowActor env senderRtid ptr message

/-- `trigger` on a timer of a flow actor. -/
def trigger (env : Environment σ) (ptr : ℕ) (kind : TimerKind) :
    Option (Runtime σ τ) :=
  let timer := (rt.actors ptr).timer kind
  if timer.requestMsgId = invalidMessageId then
    none
  else
    match timer.msgType with
    | .checkIdle => rt.checkIdle ptr
    | .startMigrationTimeout => some (rt.startMigrationTimeout ptr)
    | .changeVswitchRouteTimeout => rt.changeVswitchRouteTimeout env ptr
    | .migrateFlowStateTimeout => rt.migrateFlowStateTimeout env ptr
    | .replicaRecoverTimeout => rt.replicaRecoverTimeout env ptr

/-- One iteration of the first loop of `coordinator_mp::RunTask`. -/
def migrationIteration (env : Environment σ) : Option (Runtime σ τ) :=
  if rt.migration.qouta = 0 ∨ rt.migration.outgoing > 256 then
    some rt
  else
    (rt.peekHead .activeFlows).bind fun first ↦
      match first with
      | none =>
        some { rt with migration := { rt.migration with
          qouta := rt.migration.qouta - 1
          null := rt.migration.null + 1 } }
      | some ptr =>
        (rt.unlink ptr).bind fun rt ↦
          { rt with migration := { rt.migration with
            qouta := rt.migration.qouta - 1
            outgoing := rt.migration.outgoing + 1 } }.startMigration env ptr rt.migration.targetRtId

/-- One iteration of the second loop of `coordinator_mp::RunTask`. -/
def recoveryIteration (env : Environment σ) : Option (Runtime σ τ) :=
  if rt.recovery.storageRtid = 0 ∨ rt.recovery.outGoing > 128 then
    some rt
  else
    (rt.replicaFlowLists rt.recovery.storageRtid).bind fun head ↦
      (rt.peekHead (.replicaFlows head)).bind fun first ↦
        match first with
        | none =>
          some (if rt.recovery.outGoing = 0 then
            { rt with recovery := { rt.recovery with storageRtid := 0 } } else rt)
        | some ptr =>
          (rt.unlink ptr).bind fun rt ↦ (rt.startRecover env ptr).map fun rt ↦
            { rt with recovery := { rt.recovery with outGoing := rt.recovery.outGoing + 1 } }

/-- The command `migrate_to`. -/
def migrateTo (migrationQouta : UInt64) (runtimeId : UInt32) : Runtime σ τ :=
  if rt.migration.qouta = 0 then
    { rt with migration := { rt.migration with
      qouta := migrationQouta
      targetRtId := runtimeId
      outgoing := 0
      iteration := rt.migration.iteration + 1
      total := migrationQouta
      successful := 0
      failed := 0
      null := 0
      sourceLoss := 0 } }
  else
    rt

/-- The command `recover`. -/
def recover (runtimeId : UInt32) : Runtime σ τ :=
  if rt.recovery.storageRtid = 0 then
    { rt with recovery := { rt.recovery with
      storageRtid := runtimeId
      iteration := rt.recovery.iteration + 1
      successful := 0
      unsuccessful := 0 } }
  else
    rt

/-- The part of `add_storage` for a new peer: its list head is allocated unless there is one, and initialised.
-/
def addStorage (runtimeId : UInt32) : Runtime σ τ :=
  match rt.replicaFlowLists runtimeId with
  | some head => { rt with links := rt.links.itemInit (.replicaFlows head) }
  | none =>
    { rt with
      replicaFlowLists := Function.update rt.replicaFlowLists runtimeId (some rt.nextHead)
      nextHead := rt.nextHead + 1
      links := rt.links.itemInit (.replicaFlows rt.nextHead) }

/-- The part of `remove_storage` for the last role of a peer: its list head is freed. -/
def removeStorage (runtimeId : UInt32) : Runtime σ τ :=
  match rt.replicaFlowLists runtimeId with
  | some head =>
    { rt with
      replicaFlowLists := Function.update rt.replicaFlowLists runtimeId none
      freedHeads := head :: rt.freedHeads }
  | none => rt

def step : Input σ → Option (Runtime σ τ)
  | .beginSchedulerBatch => some { rt with ecSchedulerBatch := [] }
  | .beginControlBatch => some { rt with gb := [] }
  | .packet env pkt => rt.schedule env pkt
  | .message env senderRtid message => rt.matchMessage env senderRtid message
  | .fire env ptr kind => rt.trigger env ptr kind
  | .migrationIteration env => rt.migrationIteration env
  | .recoveryIteration env => rt.recoveryIteration env
  | .migrateTo migrationQouta runtimeId => some (rt.migrateTo migrationQouta runtimeId)
  | .recover runtimeId => some (rt.recover runtimeId)
  | .addStorage runtimeId => some (rt.addStorage runtimeId)
  | .removeStorage runtimeId => some (rt.removeStorage runtimeId)

def system (σ τ : Type) : TransitionSystem (Runtime σ τ) (Input σ) where
  init rt := ∃ config serviceChain code zero sharedState,
    rt = boot config serviceChain code zero sharedState
  step := step

/-- A network function that accepts every packet and keeps no state. -/
def passThrough : NetworkFunction Unit Unit where
  nfLogic := fun pkt state shared ↦ (true, pkt, state, shared)
  nfFlowArrive := fun state shared _ ↦ (state, shared)
  nfFlowLeave := fun state shared _ ↦ (state, shared)
  nfInitFs := id

/-- Runtime `1` with the given chain of pass-through functions. -/
def smallBoot (serviceChain : List ℕ) : Runtime Unit Unit :=
  boot ⟨1, 0x11, 0x12, 0x13⟩ serviceChain (fun _ ↦ passThrough) (fun _ ↦ ()) (fun _ ↦ ())

/-- All peers are connected, packets come from runtime `3`, and there are no replicas. -/
def connected : Environment Unit where
  reliables := fun _ ↦ some ⟨true, 0x21⟩
  macToReliables := fun _ ↦ some (some 3)
  replicaItem := none
  outputItem := none
  replicaConnection := none
  sendOk := true
  secondSendOk := true
  staleStates := fun _ ↦ ()

/-- A TCP packet from the given host of `10.0.0.0/24`, port 8080, to `10.0.0.1`, port 80. -/
def tcpPacket (host : UInt8) : Packet :=
  .ofBytes 128 ([0, 0, 0, 0, 0, 0x21, 0, 0, 0, 0, 0, 0x31, 0x08, 0x00] ++
    [0x45, 0, 0, 40, 0, 0, 0, 0, 64, 6, 0, 0, 10, 0, 0, host, 10, 0, 0, 1] ++
    [0x1F, 0x90, 0, 80] ++ List.replicate 16 0)

theorem init_smallBoot (serviceChain : List ℕ) : (system Unit Unit).init (smallBoot serviceChain) :=
  ⟨_, serviceChain, _, _, _, rfl⟩

end Runtime

end NfvActor.Actor
