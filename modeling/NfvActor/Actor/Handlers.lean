import Mathlib.Tactic
import NfvActor.Actor.Runtime

/-!
# Message handlers of flow actors and of the coordinator

One definition per handler of `flow_actor` and `coordinator`, in the order of the source. A handler that needs
`coordinator_actor_` faults on an actor that was never initialised.
-/

namespace NfvActor.Actor.Runtime

open NfvActor.Foundation
open NfvActor.Reliable (Packet)

variable {σ τ : Type} (rt : Runtime σ τ)

/-- Common to the three init messages: state fields, slots, idle timer, empty buffer list. -/
def initFlow (ptr : ℕ) (key : FlowKey) (state : FlowState)
    (replication : ReplicationState) (r : Option UInt32) (inputHeader outputHeader : EtherHeader)
    (initialise : Bool) : Option (Runtime σ τ) :=
  let allocated := NfTable.allocateChain initialise rt.serviceChain [] rt.nfs
  let rt' := { rt with nfs := allocated.2 }.modifyActor ptr fun actor ↦
    { actor with
      currentState := state
      replicationState := replication
      r := r
      flowKey := key
      coordinatorSet := true
      pktCounter := 0
      sampleCounter := 0
      inputHeader := inputHeader
      outputHeader := outputHeader
      chain := allocated.1
      buffer := [] }
  rt'.addTimer ptr .idle idleMessageId .checkIdle

/-- The runtime id behind the source address of a flow's first packet. -/
def inputRtid (env : Environment σ) (mac : UInt64) : Option UInt32 :=
  match env.macToReliables mac with
  | none => some 0
  | some peer => peer

def flowActorInitWithPkt (env : Environment σ) (ptr : ℕ) (key : FlowKey)
    (firstPacket : Packet) : Option (Runtime σ τ) :=
  let mac := srcMac firstPacket
  (inputRtid env mac).bind fun inputRt ↦
    let inputHeader := EtherHeader.init inputRt mac rt.config.inputPortMac
    let output := env.outputItem.getD (rt.config.defaultOutputMac, 0)
    let outputHeader := EtherHeader.init output.2 output.1 rt.config.outputPortMac
    match env.replicaItem with
    | none =>
      rt.initFlow ptr key .normalProcessing .noReplica (rt.actors ptr).r inputHeader outputHeader true
    | some replicaRtid =>
      if (env.reliables replicaRtid).isSome then
        rt.initFlow ptr key .normalProcessing .haveReplica (some replicaRtid) inputHeader outputHeader
          true
      else
        none

def flowActorInitWithCstruct (ptr : ℕ) (key : FlowKey)
    (inputHeader outputHeader : EtherHeader) : Option (Runtime σ τ) :=
  rt.initFlow ptr key .migrationTarget .noReplica (rt.actors ptr).r
    (EtherHeader.init inputHeader.destRtid inputHeader.dAddr rt.config.inputPortMac)
    (EtherHeader.init outputHeader.destRtid outputHeader.dAddr rt.config.outputPortMac) true

/-- `flow_actor_init_with_first_rep_pkt_t`; it does not call `nf_init_fs`. -/
def flowActorInitWithFirstRepPkt (ptr : ℕ) (key : FlowKey)
    (inputHeader outputHeader : EtherHeader) : Option (Runtime σ τ) :=
  rt.initFlow ptr key .normalProcessing .isReplica (rt.actors ptr).r
    (EtherHeader.init inputHeader.destRtid inputHeader.dAddr rt.config.inputPortMac)
    (EtherHeader.init outputHeader.destRtid outputHeader.dAddr rt.config.outputPortMac) false

def removeFlow (ptr : ℕ) : Option (Runtime σ τ) :=
  let rt' := { rt with
    htable := Function.update rt.htable (rt.actors ptr).flowKey none
    actoridHtable := Function.update rt.actoridHtable (rt.actors ptr).actorId none }
  if ptr = deadendFlowActor then
    some rt'
  else
    ((((rt'.invalidate ptr .idle).invalidate ptr .migration).invalidate ptr .replication).unlink ptr).map
      fun unlinked ↦ unlinked.deallocate ptr

/-- Gives the cells of a buffer list back to the pool, first cell first. -/
def releaseCells : RingBuffer ℕ → List (ℕ × Packet) → RingBuffer ℕ :=
  List.foldl fun ring cell ↦ (ring.push cell.1).2

/-- The buffered packets go to the collector and their cells to the pool. -/
def discardBuffer (ptr : ℕ) : Runtime σ τ :=
  let buffer := (rt.actors ptr).buffer
  { rt with
    gpCollector := rt.gpCollector ++ buffer.map Prod.snd
    collectiveBuffer := releaseCells rt.collectiveBuffer buffer
  }.modifyActor ptr fun actor ↦ { actor with buffer := [] }

/-- The loop over the chain in `check_idle`: every slot is left and given back. -/
def leaveChain (nfs : NfTable σ τ) (chain : List ChainSlot) : NfTable σ τ :=
  nfs.forChain (fun nf slot ↦ (nf.nfFlowLeave slot .idle).deallocate slot) chain

def checkIdle (rt : Runtime σ τ) (ptr : ℕ) : Option (Runtime σ τ) :=
  let rt := rt.invalidate ptr .idle
  let actor := rt.actors ptr
  let resample := rt.modifyActor ptr fun actor ↦ { actor with sampleCounter := actor.pktCounter }
  if actor.currentState.code % 2 = 0 then
    resample.addTimer ptr .idle idleMessageId .checkIdle
  else if actor.sampleCounter = actor.pktCounter then
    let drained := if actor.currentState = .migrationTarget then rt.discardBuffer ptr else rt
    { drained with nfs := leaveChain drained.nfs actor.chain }.removeFlow ptr
  else
    resample.addTimer ptr .idle idleMessageId .checkIdle

def repFsPktMsg (ptr : ℕ) (states : ℕ → σ) (pkt : Packet) : Option (Runtime σ τ) :=
  if (rt.actors ptr).replicationState ≠ .isReplica then
    some rt
  else
    let loaded := NfTable.loadChain (fun nf _ ↦ nf) states 0 (rt.actors ptr).chain rt.nfs
    ({ rt with nfs := loaded }.modifyActor ptr fun actor ↦
      { actor with pktCounter := actor.pktCounter + 1 }).addPktSetGate pkt 1

/-- `no_replication_output`, which does not look at the verdict. -/
def noReplicationOutput (ptr : ℕ) (pkt : Packet) (_result : Bool) :
    Option (Runtime σ τ) :=
  if (rt.actors ptr).coordinatorSet then rt.emit pkt else none

def replicationOutput (env : Environment σ) (ptr : ℕ) (pkt : Packet) (_result : Bool) : Option (Runtime σ τ) :=
  let actor := rt.actors ptr
  match env.replicaConnection, actor.r with
  | some false, _ =>
    (rt.modifyActor ptr fun actor ↦ { actor with replicationState := .noReplica }).emit pkt
  | some true, some destRtid =>
    let states := rt.nfs.saveChain actor.chain env.staleStates
    let body := MessageBody.replication actor.inputHeader actor.outputHeader actor.flowKey states pkt
    let rt' := { rt.collect pkt with nextMsgId := rt.nextMsgId + 1 }
    if env.sendOk then
      some { rt' with outbox :=
        rt.outbox ++ [(destRtid, ⟨actor.actorId, coordinatorActorId, rt.nextMsgId, body⟩)] }
    else
      some rt'
  | _, _ => none

def pktNormalNfProcessing (env : Environment σ) (ptr : ℕ) (pkt : Packet) :
    Option (Runtime σ τ) :=
  let actor := rt.actors ptr
  let result := NfTable.runChain actor.chain pkt rt.nfs
  let rt' := { rt with nfs := result.2.2 }.modifyActor ptr fun actor ↦
    { actor with pktCounter := actor.pktCounter + 1 }
  let pkt' := writeEther result.2.1 actor.outputHeader
  if actor.replicationState = .haveReplica then
    rt'.replicationOutput env ptr pkt' result.1
  else
    rt'.noReplicationOutput ptr pkt' result.1

def pktMigrationTargetProcessing (ptr : ℕ) (pkt : Packet) : Runtime σ τ :=
  let rt := rt.modifyActor ptr fun actor ↦ { actor with pktCounter := actor.pktCounter + 1 }
  match rt.collectiveBuffer.pop with
  | none =>
    { rt.collect pkt with migration :=
      { rt.migration with targetLoss := rt.migration.targetLoss + 1 } }
  | some (cell, ring) =>
    { rt with collectiveBuffer := ring }.modifyActor ptr fun actor ↦
      { actor with buffer := actor.buffer ++ [(cell, pkt)] }

def pktProcessAfterRouteChange (pkt : Packet) : Runtime σ τ :=
  { rt.collect pkt with migration := { rt.migration with sourceLoss := rt.migration.sourceLoss + 1 } }

/-- `pkt_msg_t` with its table of processing functions. -/
def pktMsg (env : Environment σ) (ptr : ℕ) (pkt : Packet) : Option (Runtime σ τ) :=
  match (rt.actors ptr).currentState with
  | .migrationTarget => some (rt.pktMigrationTargetProcessing ptr pkt)
  | .afterRouteChange => some (rt.pktProcessAfterRouteChange pkt)
  | _ => rt.pktNormalNfProcessing env ptr pkt

/-! ## Migration -/

/-- An actor gives up migrating: normal state, tail of the active list, one migration less under way, one more
failed. -/
def abandonMigration (ptr : ℕ) : Runtime σ τ :=
  let rt := (rt.modifyActor ptr fun actor ↦
    { actor with currentState := .normalProcessing }).addTail .activeFlows ptr
  { rt with migration := { rt.migration with
      outgoing := rt.migration.outgoing - 1
      failed := rt.migration.failed + 1 } }

def startMigration (env : Environment σ) (ptr : ℕ) (migrationTargetRtid : UInt32) :
    Option (Runtime σ τ) :=
  if (rt.actors ptr).replicationState = .haveReplica then
    some (rt.abandonMigration ptr)
  else
    let rt := rt.modifyActor ptr fun actor ↦ { actor with currentState := .migrationSource }
    let actor := rt.actors ptr
    (rt.sendMessage env env.sendOk migrationTargetRtid actor.actorId coordinatorActorId
      (.createMigrationTargetActor actor.inputHeader actor.outputHeader actor.flowKey)).bind fun sent ↦
        sent.2.addTimer ptr .migration rt.nextMsgId .startMigrationTimeout

def startMigrationTimeout (ptr : ℕ) : Runtime σ τ :=
  (rt.invalidate ptr .migration).abandonMigration ptr

def startMigrationResponse (env : Environment σ) (ptr : ℕ)
    (requestMsgId migrationTargetActorId : UInt32) : Option (Runtime σ τ) :=
  if requestMsgId ≠ (rt.actors ptr).migrationTimer.requestMsgId then
    some rt
  else if (rt.actors ptr).coordinatorSet then
    let rt := (rt.invalidate ptr .migration).modifyActor ptr fun actor ↦
      { actor with migrationTargetActorId := migrationTargetActorId }
    let actor := rt.actors ptr
    (rt.sendMessage env env.sendOk actor.inputHeader.destRtid actor.actorId coordinatorActorId
      (.changeVswitchRoute actor.flowKey rt.migration.targetRtId)).bind fun sent ↦
        sent.2.addTimer ptr .migration rt.nextMsgId .changeVswitchRouteTimeout
  else
    none

def failureHandling (env : Environment σ) (sendOk : Bool) (ptr : ℕ) :
    Option (Runtime σ τ) :=
  let rt := rt.modifyActor ptr fun actor ↦ { actor with currentState := .failureProcessing }
  let actor := rt.actors ptr
  (rt.sendMessage env sendOk actor.inputHeader.destRtid actor.actorId coordinatorActorId
    (.changeVswitchRoute actor.flowKey rt.config.runtimeId)).bind fun sent ↦
      sent.2.addTimer ptr .migration rt.nextMsgId .changeVswitchRouteTimeout

def changeVswitchRouteTimeout (env : Environment σ) (ptr : ℕ) :
    Option (Runtime σ τ) :=
  let rt := rt.invalidate ptr .migration
  (env.reliables (rt.actors ptr).inputHeader.destRtid).bind fun peer ↦
    if peer.connectionUp then rt.failureHandling env env.sendOk ptr else some (rt.abandonMigration ptr)

/-- The part of `change_vswitch_route_response_t` that ships the flow states. -/
def shipFlowState (env : Environment σ) (ptr : ℕ) : Option (Runtime σ τ) :=
  let rt := rt.modifyActor ptr fun actor ↦ { actor with currentState := .afterRouteChange }
  let actor := rt.actors ptr
  (rt.sendMessage env env.sendOk rt.migration.targetRtId actor.actorId actor.migrationTargetActorId
    (.migrateFlowState (rt.nfs.saveChain actor.chain env.staleStates))).bind fun sent ↦
      if sent.1 then sent.2.addTimer ptr .migration rt.nextMsgId .migrateFlowStateTimeout
      else sent.2.failureHandling env env.secondSendOk ptr

def changeVswitchRouteResponse (env : Environment σ) (ptr : ℕ)
    (requestMsgId changeRouteSucceed : UInt32) : Option (Runtime σ τ) :=
  if requestMsgId ≠ (rt.actors ptr).migrationTimer.requestMsgId then
    some rt
  else if (rt.actors ptr).coordinatorSet then
    let rt := rt.invalidate ptr .migration
    if (rt.actors ptr).currentState = .failureProcessing ∨ changeRouteSucceed = 1 then
      some (rt.abandonMigration ptr)
    else
      rt.shipFlowState env ptr
  else
    none

/-- One buffered packet in the replay of `migrate_flow_state_t`. -/
def replayPacket (ptr : ℕ) (cell : ℕ × Packet) : Option (Runtime σ τ) :=
  let actor := rt.actors ptr
  let result := NfTable.runChain actor.chain cell.2 rt.nfs
  let rt' := { rt with nfs := result.2.2 }
  let output :=
    if result.1 then rt'.addPktSetGate (writeEther result.2.1 actor.outputHeader) 1
    else some (rt'.collect result.2.1)
  output.map fun rt ↦
    { rt with
      migration := { rt.migration with targetBufferSize := rt.migration.targetBufferSize + 1 }
      collectiveBuffer := (rt.collectiveBuffer.push cell.1).2
    }.modifyActor ptr fun actor ↦ { actor with pktCounter := actor.pktCounter + 1 }

/-- The replay of all buffered packets. -/
def replayBuffer (rt : Runtime σ τ) (ptr : ℕ) : List (ℕ × Packet) → Option (Runtime σ τ)
  | [] => some (rt.modifyActor ptr fun actor ↦ { actor with buffer := [] })
  | cell :: rest => (rt.replayPacket ptr cell).bind fun rt' ↦ rt'.replayBuffer ptr rest

def migrateFlowState (env : Environment σ) (ptr : ℕ)
    (senderRtid senderActorId requestMsgId : UInt32) (states : ℕ → σ) : Option (Runtime σ τ) :=
  let actor := rt.actors ptr
  if actor.coordinatorSet then
    let loaded :=
      NfTable.loadChain (fun nf slot ↦ nf.nfFlowArrive slot .migrateIn) states 0 actor.chain rt.nfs
    let rt := { rt with nfs := loaded }
    (rt.sendMessage env env.sendOk senderRtid actor.actorId senderActorId
      (.migrateFlowStateResponse requestMsgId)).bind fun sent ↦
        let rt := (sent.2.modifyActor ptr fun actor ↦
          { actor with currentState := .normalProcessing }).addTail .activeFlows ptr
        { rt with migration := { rt.migration with
            migratedInFlowNum := rt.migration.migratedInFlowNum + 1 } }.replayBuffer ptr actor.buffer
  else
    none

def migrateFlowStateTimeout (env : Environment σ) (ptr : ℕ) : Option (Runtime σ τ) :=
  (rt.invalidate ptr .migration).failureHandling env env.sendOk ptr

/-- `migrate_flow_state_response_t`; the slots are left but not given back. -/
def migrateFlowStateResponse (ptr : ℕ) (requestMsgId : UInt32) :
    Option (Runtime σ τ) :=
  if requestMsgId ≠ (rt.actors ptr).migrationTimer.requestMsgId then
    some rt
  else if (rt.actors ptr).coordinatorSet then
    let rt := (rt.invalidate ptr .migration).modifyActor ptr fun actor ↦
      { actor with currentState := .normalProcessing }
    let left := rt.nfs.forChain (fun nf slot ↦ nf.nfFlowLeave slot .migrateOut) (rt.actors ptr).chain
    let rt := { rt with
      migration := { rt.migration with
        outgoing := rt.migration.outgoing - 1
        successful := rt.migration.successful + 1 }
      nfs := left }
    (rt.invalidate ptr .idle).removeFlow ptr
  else
    none

def startRecover (env : Environment σ) (ptr : ℕ) : Option (Runtime σ τ) :=
  let actor := rt.actors ptr
  (rt.sendMessage env env.sendOk actor.inputHeader.destRtid actor.actorId coordinatorActorId
    (.replicaRecover actor.flowKey rt.config.runtimeId)).bind fun sent ↦
      sent.2.addTimer ptr .replication rt.nextMsgId .replicaRecoverTimeout

/-- A replica becomes an ordinary active flow. -/
def activateReplica (ptr : ℕ) : Runtime σ τ :=
  (rt.modifyActor ptr fun actor ↦ { actor with replicationState := .noReplica }).addTail .activeFlows ptr

def replicaRecoverTimeout (env : Environment σ) (ptr : ℕ) : Option (Runtime σ τ) :=
  let rt := rt.invalidate ptr .replication
  (env.reliables (rt.actors ptr).inputHeader.destRtid).bind fun peer ↦
    if peer.connectionUp then
      rt.startRecover env ptr
    else
      let rt := rt.activateReplica ptr
      some { rt with recovery := { rt.recovery with
        unsuccessful := rt.recovery.unsuccessful + 1
        outGoing := rt.recovery.outGoing - 1 } }

/-- `replica_recover_response_t`; it does not look at the outcome. -/
def replicaRecoverResponse (ptr : ℕ) (requestMsgId : UInt32) : Option (Runtime σ τ) :=
  if requestMsgId ≠ (rt.actors ptr).replicationTimer.requestMsgId then
    some rt
  else if (rt.actors ptr).coordinatorSet then
    let rt := (rt.invalidate ptr .replication).activateReplica ptr
    let arrived := rt.nfs.forChain (fun nf slot ↦ nf.nfFlowArrive slot .recoverOn) (rt.actors ptr).chain
    some { rt with
      recovery := { rt.recovery with
        successful := rt.recovery.successful + 1
        outGoing := rt.recovery.outGoing - 1 }
      nfs := arrived }
  else
    none

/-! ## The coordinator -/

/-- `create_migration_target_actor_t`; the flow key is not looked up first. -/
def createMigrationTargetActor (env : Environment σ)
    (senderRtid senderActorId msgId : UInt32) (inputHeader outputHeader : EtherHeader) (key : FlowKey) :
    Option (Runtime σ τ) :=
  match rt.allocate with
  | none => some rt
  | some (ptr, rt) =>
    ((rt.addTail .activeFlows ptr).flowActorInitWithCstruct ptr key inputHeader outputHeader).bind
      fun rt ↦
        let rt := rt.bind key ptr
        (rt.sendMessage env env.sendOk senderRtid coordinatorActorId senderActorId
          (.startMigrationResponse msgId (rt.actors ptr).actorId)).map Prod.snd

/-- `update_output_header` on the actor of a flow, if there is one. The flag is `change_route_succeed`. -/
def updateRoute (env : Environment σ) (key : FlowKey) (newOutputRtId : UInt32) :
    Option (UInt32 × Runtime σ τ) :=
  match rt.htable key with
  | none => some (1, rt)
  | some ptr =>
    (env.reliables newOutputRtId).map fun peer ↦
      (0, rt.modifyActor ptr fun actor ↦
        { actor with outputHeader := { actor.outputHeader with
            destRtid := newOutputRtId
            dAddr := peer.inputPortMac &&& 0xFFFFFFFFFFFF } })

def changeVswitchRoute (env : Environment σ) (senderRtid senderActorId msgId : UInt32)
    (key : FlowKey) (newOutputRtId : UInt32) : Option (Runtime σ τ) :=
  (rt.updateRoute env key newOutputRtId).bind fun updated ↦
    (updated.2.sendMessage env env.sendOk senderRtid coordinatorActorId senderActorId
      (.changeVswitchRouteResponse msgId updated.1)).map Prod.snd

def replicaRecover (env : Environment σ) (senderRtid senderActorId msgId : UInt32)
    (key : FlowKey) (newOutputRtId : UInt32) : Option (Runtime σ τ) :=
  (rt.updateRoute env key newOutputRtId).bind fun updated ↦
    (updated.2.sendMessage env env.sendOk senderRtid coordinatorActorId senderActorId
      (.replicaRecoverResponse msgId updated.1)).map Prod.snd

/-- The case `replication_msg` of `process_reliable_msg::match`. -/
def replicationMsg (senderRtid : UInt32) (inputHeader outputHeader : EtherHeader)
    (key : FlowKey) (states : ℕ → σ) (pkt : Packet) : Option (Runtime σ τ) :=
  match rt.htable key with
  | some ptr => rt.repFsPktMsg ptr states pkt
  | none =>
    match rt.allocate with
    | none => (rt.bind key deadendFlowActor).repFsPktMsg deadendFlowActor states pkt
    | some (ptr, rt) =>
      (rt.replicaFlowLists senderRtid).bind fun head ↦
        ((rt.addTail (.replicaFlows head) ptr).flowActorInitWithFirstRepPkt ptr key inputHeader
          outputHeader).bind fun rt ↦ (rt.bind key ptr).repFsPktMsg ptr states pkt

/-- `ping_t`; the answer carries a fixed message id. -/
def ping (env : Environment σ) (senderRtid : UInt32) : Option (Runtime σ τ) :=
  (env.reliables senderRtid).map fun peer ↦
    if peer.connectionUp && env.sendOk then
      { rt with outbox :=
        rt.outbox ++ [(senderRtid, ⟨coordinatorActorId, coordinatorActorId, 77364, .pong⟩)] }
    else
      rt

end NfvActor.Actor.Runtime
