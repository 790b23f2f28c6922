import Mathlib.Tactic
import NfvActor.Actor.Outcomes

/-!
# Every step has a ledger effect

The operations that make up the outcomes of a step are followed through the projection to the ledger, and then
the outcomes.
-/

namespace NfvActor.Actor

open NfvActor.Foundation
open NfvActor.Reliable (Packet)
open Function
open Option (bind_eq_some_iff map_eq_some_iff)

namespace Ledger

variable (ledger : Ledger) (ptr : ℕ)

theorem setCard_cards : ledger.setCard ptr (ledger.cards ptr) = ledger := by
  simp [setCard]

@[simp]
theorem setCard_setCard (card card' : Card) :
    (ledger.setCard ptr card).setCard ptr card' = ledger.setCard ptr card' := by
  simp [setCard]

@[simp]
theorem cards_setCard (card : Card) : (ledger.setCard ptr card).cards ptr = card := by
  simp [setCard]

@[simp]
theorem modifyCard_modifyCard (change change' : Card → Card) :
    (ledger.modifyCard ptr change).modifyCard ptr change' =
      ledger.modifyCard ptr fun card ↦ change' (change card) := by
  simp [modifyCard]

end Ledger

namespace Runtime

variable {σ τ : Type}

@[simp]
theorem ledger_modifyActor (rt : Runtime σ τ) (ptr : ℕ) (change : FlowActor → FlowActor) :
    (rt.modifyActor ptr change).ledger = rt.ledger.setCard ptr (change (rt.actors ptr)).card := by
  simp only [ledger, modifyActor, Ledger.setCard, Ledger.mk.injEq, true_and]
  refine ⟨?_, trivial⟩
  funext other
  simp only [update_apply]
  split <;> rfl

variable {rt rt' : Runtime σ τ} {ptr : ℕ} {kind : TimerKind}
  {requestMsgId senderRtid senderActorId msgId newOutputRtId : UInt32} {msgType : TimerMessage}
  {env : Environment σ} {sendOk : Bool} {pkt : Packet} {key : FlowKey}
  {inputHeader outputHeader : EtherHeader}

theorem ledger_modifyActor_same {change : FlowActor → FlowActor}
    (hcard : (change (rt.actors ptr)).card = (rt.actors ptr).card) :
    (rt.modifyActor ptr change).ledger = rt.ledger := by
  rw [ledger_modifyActor, hcard]
  exact Ledger.setCard_cards _ _

theorem card_setTimer (actor : FlowActor) (kind : TimerKind) (timer : ActorTimer) :
    (actor.setTimer kind timer).card = actor.card.setTimer kind timer := by
  cases kind <;> rfl

@[simp]
theorem ledger_invalidate (rt : Runtime σ τ) (ptr : ℕ) (kind : TimerKind) :
    (rt.invalidate ptr kind).ledger = rt.ledger.disarm ptr kind := by
  rw [invalidate, ledger_modifyActor, card_setTimer, Ledger.disarm, Ledger.modifyCard, cards_ledger, card_timer]

@[simp]
theorem ledger_addTail (rt : Runtime σ τ) (head : ListNode) (ptr : ℕ) :
    (rt.addTail head ptr).ledger = rt.ledger.addTail head ptr := rfl

@[simp]
theorem ledger_bind (rt : Runtime σ τ) (key : FlowKey) (ptr : ℕ) :
    (rt.bind key ptr).ledger = rt.ledger.bind key ptr := rfl

/-- Network functions that keep their free rings do not show in the ledger. -/
theorem ledger_nfs {nfs : NfTable σ τ} (hfree : nfs.free = rt.nfs.free) :
    { rt with nfs := nfs }.ledger = rt.ledger := by
  simp only [ledger, hfree]

theorem ledger_enter (rt : Runtime σ τ) (ptr : ℕ) (state : FlowState) :
    (rt.enter ptr state).ledger = rt.ledger.modifyCard ptr fun card ↦ { card with currentState := state } :=
  ledger_modifyActor ..

theorem ledger_ask (rt : Runtime σ τ) (sent : Bool) (ptr : ℕ) (request : Request σ) :
    (rt.ask sent ptr request).ledger = rt.ledger.modifyCard ptr fun card ↦
      card.setTimer request.msgType.kind ⟨rt.nextMsgId, request.msgType⟩ := by
  rw [ask, ledger_modifyActor, card_setTimer]
  rfl

theorem ledger_post (rt : Runtime σ τ) (sent : Bool) (dest sendActorId recvActorId : UInt32)
    (body : MessageBody σ) : (rt.post sent dest sendActorId recvActorId body).ledger = rt.ledger := rfl

theorem ledger_opened (rt : Runtime σ τ) (opening : Opening) : (rt.opened opening).ledger =
    rt.ledger.enroll opening.ptr opening.ring opening.head opening.key opening.state
      opening.replication := by
  have hfree := NfTable.allocateChain_free opening.initialise rt.serviceChain [] rt.nfs
  rw [opened, ledger_bind, ledger_addTail, ledger_modifyActor]
  simp only [Ledger.enroll, Ledger.occupy, Ledger.start, Ledger.addTail, Ledger.modifyCard, Ledger.setCard,
    FlowActor.card, openedActor, ledger, hfree.1, hfree.2, update_self, update_idem]

theorem ledger_removed (rt : Runtime σ τ) (ptr : ℕ) : (rt.removed ptr).ledger = rt.ledger.remove ptr := by
  unfold removed Ledger.remove
  dsimp only
  split
  · rfl
  · simp only [deallocate, ledger_modifyActor]
    simp only [invalidate, modifyActor, ledger, Ledger.setCard, FlowActor.card, FlowActor.setTimer,
      FlowActor.timer, update_self, update_idem, Ledger.mk.injEq, true_and]
    refine ⟨?_, trivial⟩
    funext other
    simp only [update_apply]
    split <;> rfl

theorem ledger_drained (rt : Runtime σ τ) (ptr : ℕ) :
    (rt.drained ptr).ledger = rt.ledger.disarm ptr .idle := by
  rw [drained, ← ledger_invalidate]
  split
  · exact ledger_modifyActor_same rfl
  · rfl

theorem ledger_abandonMigration (rt : Runtime σ τ) (ptr : ℕ) :
    (rt.abandonMigration ptr).ledger = rt.ledger.giveUp ptr := by
  have hactive : ((rt.enter ptr .normalProcessing).addTail .activeFlows ptr).ledger =
      (rt.ledger.modifyCard ptr fun card ↦
        { card with currentState := .normalProcessing }).addTail .activeFlows ptr := by
    rw [ledger_addTail, ledger_enter]
  rw [Ledger.giveUp, ← hactive]
  rfl

theorem ledger_activateReplica (rt : Runtime σ τ) (ptr : ℕ) :
    ((rt.invalidate ptr .replication).activateReplica ptr).ledger =
      ((rt.ledger.disarm ptr .replication).dropReplica ptr).addTail .activeFlows ptr := by
  unfold activateReplica
  rw [ledger_addTail, ledger_modifyActor, ← ledger_invalidate]
  rfl

theorem ledger_recovered (rt : Runtime σ τ) (ptr : ℕ) :
    (rt.recovered ptr).ledger = rt.ledger.endRecovery ptr true := by
  rw [Ledger.endRecovery, ← ledger_activateReplica]
  simp only [recovered, ledger]
  congr 1
  exact NfTable.free_forChain (fun nf slot ↦ nf.ringBuf_nfFlowArrive slot .recoverOn) _ _

theorem ledger_notRecovered (rt : Runtime σ τ) (ptr : ℕ) :
    (rt.notRecovered ptr).ledger = rt.ledger.endRecovery ptr false := by
  rw [Ledger.endRecovery, ← ledger_activateReplica]
  rfl

theorem ledger_left (rt : Runtime σ τ) (ptr : ℕ) :
    (rt.left ptr).ledger = (rt.ledger.disarm ptr .idle).release ptr := by
  have hfree : (leaveChain rt.nfs (rt.actors ptr).chain).free = rt.nfs.free.release (rt.actors ptr).chain :=
    NfTable.free_forChain_push (fun _ _ ↦ rfl) _ _
  have hchain : ((rt.ledger.disarm ptr .idle).cards ptr).chain = (rt.actors ptr).chain := by
    rw [Ledger.disarm, Ledger.modifyCard, Ledger.cards_setCard]
    rfl
  rw [Ledger.release, hchain, ← ledger_drained]
  simp only [left, ledger, hfree, nfs_drained]

theorem ledger_settled (rt : Runtime σ τ) (ptr : ℕ) :
    (rt.settled ptr).ledger = (rt.ledger.settle ptr).disarm ptr .idle := by
  have hnormal : ((rt.invalidate ptr .migration).enter ptr .normalProcessing).ledger =
      (rt.ledger.disarm ptr .migration).modifyCard ptr fun card ↦
        { card with currentState := .normalProcessing } := by
    rw [ledger_enter, ledger_invalidate]
  rw [settled, ledger_invalidate, Ledger.settle, ← hnormal]
  simp only [ledger]
  congr 2
  exact NfTable.free_forChain (fun nf slot ↦ nf.ringBuf_nfFlowLeave slot .migrateOut) _ _

theorem ledger_arriving (rt : Runtime σ τ) (sent : Bool) (ptr : ℕ) (senderRtid : UInt32) (message : Message σ)
    (states : ℕ → σ) : (rt.arriving sent ptr senderRtid message states).ledger = rt.ledger.arrive ptr := by
  have hfree := NfTable.free_loadChain (fun (nf : NfInstance σ τ) slot ↦ nf.ringBuf_nfFlowArrive slot .migrateIn)
    states 0 (rt.actors ptr).chain rt.nfs
  have hentered {base : Runtime σ τ} (hbase : base.ledger = rt.ledger) :
      (base.enter ptr .normalProcessing).ledger =
        rt.ledger.modifyCard ptr fun card ↦ { card with currentState := .normalProcessing } := by
    rw [ledger_enter, hbase]
  exact congrArg (Ledger.addTail · .activeFlows ptr) (hentered ((ledger_post ..).trans (ledger_nfs hfree)))

theorem ledger_counted (rt : Runtime σ τ) (ptr : ℕ) : (rt.counted ptr).ledger = rt.ledger :=
  ledger_modifyActor_same rfl

theorem ledger_ran (rt : Runtime σ τ) (ptr : ℕ) (pkt : Packet) : (rt.ran ptr pkt).ledger = rt.ledger :=
  (ledger_counted ..).trans (ledger_nfs (NfTable.free_runChain _ _ _))

theorem repFsPktMsg_spec {states : ℕ → σ} (h : rt.repFsPktMsg ptr states pkt = some rt') :
    rt'.ledger = rt.ledger := by
  obtain ⟨-, rfl⟩ | ⟨-, rfl⟩ := repFsPktMsg_cases h
  · rfl
  · rw [ledger_counted]
    exact ledger_nfs (NfTable.free_loadChain (fun _ _ ↦ rfl) _ _ _ _)

theorem pktMsg_spec (h : rt.pktMsg env ptr pkt = some rt') : rt'.ledger = rt.ledger ∨
      (rt.actors ptr).replicationState = .haveReplica ∧ rt'.ledger = rt.ledger.dropReplica ptr := by
  cases pktMsg_takes h with
  | full => exact .inl (ledger_counted rt ptr)
  | keep => exact .inl ((ledger_modifyActor_same rfl).trans (ledger_counted rt ptr))
  | late => exact .inl rfl
  | emit | replicate => exact .inl (ledger_ran rt ptr pkt)
  | disconnect _ _ hreplica =>
    refine .inr ⟨hreplica, ?_⟩
    rw [← ledger_ran rt ptr pkt]
    exact ledger_modifyActor ..

theorem replayBuffer_spec (buffer : List (ℕ × Packet)) (h : rt.replayBuffer ptr buffer = some rt') :
    rt'.ledger = rt.ledger := by
  induction buffer generalizing rt with
  | nil =>
    cases h
    exact ledger_modifyActor_same rfl
  | cons cell _ ih =>
    obtain ⟨mid, hmid, hrest⟩ := bind_eq_some_iff.1 h
    obtain ⟨_, _, -, rfl⟩ := replayPacket_eq hmid
    exact (ih hrest).trans (ledger_ran rt ptr cell.2)

theorem updateRoute_spec {updated : UInt32 × Runtime σ τ}
    (h : rt.updateRoute env key newOutputRtId = some updated) : updated.2.ledger = rt.ledger := by
  unfold updateRoute at h
  split at h
  · rw [← Option.some.inj h]
  · obtain ⟨peer, -, rfl⟩ := map_eq_some_iff.1 h
    exact ledger_modifyActor_same rfl

/-! ## Steps -/

theorem pktMsg_deadend (hdeadend : rt.ledger.DeadendBlank) (env : Environment σ) (pkt : Packet) :
    rt.pktMsg env deadendFlowActor pkt = none := by
  have hstate : (rt.actors deadendFlowActor).currentState = .uninitialised := hdeadend.state
  have hreplication : (rt.actors deadendFlowActor).replicationState = .noReplica := hdeadend.replication
  have hset : (rt.actors deadendFlowActor).coordinatorSet = false := hdeadend.coordinator
  simp [pktMsg, hstate, pktNormalNfProcessing, hreplication, noReplicationOutput, hset]

theorem enroll_dropReplica (ledger : Ledger) (ptr : ℕ) (ring : RingBuffer ℕ) (head : ListNode)
    (key : FlowKey) (state : FlowState) (replication : ReplicationState) :
    (ledger.enroll ptr ring head key state replication).dropReplica ptr =
      ledger.enroll ptr ring head key state .noReplica := by
  simp [Ledger.enroll, Ledger.dropReplica, Ledger.start, Ledger.bind, Ledger.modifyCard, Ledger.setCard]

theorem answers_fire {msgType : TimerMessage} (env : Environment σ) (harmed : ((rt.actors ptr).timer kind).Armed)
    (htype : ((rt.actors ptr).timer kind).msgType = msgType) :
    rt.ledger.Answers (.fire env ptr kind) ptr msgType.kind := by
  rw [← card_timer] at harmed htype
  rw [← htype]
  exact .timeout env ptr kind harmed

theorem answers_message {message : Message σ} (kind : TimerKind) (env : Environment σ) (senderRtid : UInt32)
    (hdelivers : rt.ledger.Delivers message ptr)
    (hrequest : message.body.request = some (kind, ((rt.actors ptr).timer kind).requestMsgId)) :
    rt.ledger.Answers (.message env senderRtid message) ptr kind := by
  rw [← card_timer] at hrequest
  exact .response env senderRtid message ptr kind hdelivers hrequest

variable {input : Input σ} {base : Runtime σ τ} {sent : Bool} {request : Request σ} {opening : Opening}

theorem Tallies.effect (h : rt.Tallies input rt') : rt.ledger.Effect input rt'.ledger := by
  have hlists (runtimeId : UInt32) :
      rt.ledger.replicaFlowLists runtimeId = rt.replicaFlowLists runtimeId := rfl
  cases h with
  | schedulerBatch => exact .unchanged _
  | controlBatch => exact .unchanged _
  | skipMigration env hqouta => exact .skipMigration env hqouta
  | recoveryDone env => exact .recoveryDone env
  | migrateTo migrationQouta runtimeId =>
    rw [Runtime.migrateTo]
    split
    · next hqouta => exact .migrateTo migrationQouta runtimeId hqouta
    · exact .unchanged _
  | recover runtimeId =>
    rw [Runtime.recover]
    split
    · exact .recover runtimeId
    · exact .unchanged _
  | addStorage runtimeId =>
    have hledger : (rt.addStorage runtimeId).ledger = rt.ledger.addStorage runtimeId := by
      rw [Runtime.addStorage, Ledger.addStorage, hlists]
      cases rt.replicaFlowLists runtimeId <;> rfl
    rw [hledger]
    exact .addStorage runtimeId
  | removeStorage runtimeId =>
    have hledger : (rt.removeStorage runtimeId).ledger = rt.ledger.removeStorage runtimeId := by
      rw [Runtime.removeStorage, Ledger.removeStorage, hlists]
      cases rt.replicaFlowLists runtimeId <;> rfl
    rw [hledger]
    exact .removeStorage runtimeId

theorem Abandons.effect (h : rt.Abandons input base ptr) :
    rt.ledger.Effect input (base.abandonMigration ptr).ledger := by
  rw [ledger_abandonMigration]
  cases h with
  | timeout env _ kind harmed htype =>
    rw [ledger_invalidate]
    rcases htype with htype | ⟨htype, -⟩ <;> exact .abandon _ ptr (answers_fire env harmed htype)
  | response env senderRtid message _ _ hdelivers hbody =>
    rw [ledger_invalidate]
    exact .abandon _ ptr (answers_message .migration env senderRtid hdelivers (by rw [hbody]; rfl))
  | refuse env _ hpick hhave =>
    obtain ⟨hqouta, hpeek⟩ := migrationPick_spec hpick
    exact .refuse env ptr hqouta hpeek hhave

theorem Prepares.effect (h : rt.Prepares input base sent ptr request) :
    rt.ledger.Effect input (base.ask sent ptr request).ledger := by
  rw [ledger_ask]
  cases h with
  | depart env ptr _ hpick hreplica hidle =>
    obtain ⟨hqouta, hpeek⟩ := migrationPick_spec hpick
    rw [ledger_enter, Ledger.modifyCard_modifyCard]
    exact .depart env ptr _ hqouta hpeek hidle hreplica
  | forward env senderRtid message ptr _ _ hdelivers hbody =>
    have hanswers := answers_message .migration env senderRtid hdelivers (by rw [hbody]; rfl)
    rw [ledger_modifyActor_same rfl, ledger_invalidate, Ledger.disarm, Ledger.modifyCard_modifyCard]
    exact .request _ ptr _ _ hanswers (.inl rfl) rfl
  | ship env senderRtid message ptr _ hdelivers hbody =>
    have hanswers := answers_message .migration env senderRtid hdelivers (by rw [hbody]; rfl)
    rw [ledger_enter, ledger_invalidate, Ledger.disarm, Ledger.modifyCard_modifyCard,
      Ledger.modifyCard_modifyCard]
    exact .request _ ptr _ _ hanswers (.inr (.inr rfl)) rfl
  | stay env senderRtid message ptr _ _ hdelivers hbody =>
    have hanswers := answers_message .migration env senderRtid hdelivers (by rw [hbody]; rfl)
    rw [ledger_enter, ledger_invalidate, Ledger.disarm, Ledger.modifyCard_modifyCard,
      Ledger.modifyCard_modifyCard]
    exact .request _ ptr _ _ hanswers (.inr (.inl rfl)) rfl
  | back env ptr kind _ harmed htype =>
    have hanswers : rt.ledger.Answers (.fire env ptr kind) ptr .migration := by
      rcases htype with htype | ⟨htype, -⟩ <;> exact answers_fire env harmed htype
    rw [ledger_enter, ledger_invalidate, Ledger.disarm, Ledger.modifyCard_modifyCard,
      Ledger.modifyCard_modifyCard]
    exact .request _ ptr _ _ hanswers (.inr (.inl rfl)) rfl
  | recover env ptr _ hpick hidle =>
    obtain ⟨-, head, hpeek⟩ := recoveryPick_spec hpick
    exact .startRecovery env ptr head _ hpeek hidle
  | recoverAgain env ptr kind _ harmed htype =>
    rw [ledger_invalidate, Ledger.disarm, Ledger.modifyCard_modifyCard]
    exact .retryRecovery _ ptr _ (answers_fire env harmed htype)

theorem Opens.effect (hgrants : rt.Grants opening) (h : rt.Opens input opening rt') :
    rt.ledger.Effect input rt'.ledger := by
  have hopened := ledger_opened rt opening
  cases h with
  | packet env pkt ptr ring _ replication _ _ hnone _ hreplica hpkt hitem =>
    change _ = rt.ledger.enroll ptr ring .activeFlows (flowKeyOf pkt) .normalProcessing replication at hopened
    rcases pktMsg_spec hpkt with hledger | ⟨-, hledger⟩
    · rw [hledger, hopened]
      exact .newFlow env pkt ptr ring replication hnone hgrants.1 hreplica hitem
    · rw [hledger, hopened, enroll_dropReplica]
      exact .newFlow env pkt ptr ring .noReplica hnone hgrants.1 (by decide) nofun
  | target env senderRtid message inputHeader outputHeader key ptr ring _ _ hrecv hbody =>
    rw [ledger_post, hopened]
    exact .newTarget env senderRtid message inputHeader outputHeader key ptr ring hrecv hbody hgrants.1
  | replica env senderRtid message inputHeader outputHeader key states pkt ptr ring _ head _ hrecv hbody hnone
      hhead hrep =>
    rw [repFsPktMsg_spec hrep, hopened]
    exact .newReplica env senderRtid message inputHeader outputHeader key states pkt ptr ring head hrecv hbody
      hnone hgrants.1 hhead

/-- Every step of a runtime has one of the listed effects on its ledger. -/
theorem step_effect (hdeadend : rt.ledger.DeadendBlank) (input : Input σ) (h : rt.step input = some rt') :
    rt.ledger.Effect input rt'.ledger := by
  cases step_outcome h with
  | rest => exact .unchanged _
  | tally _ _ htallies => exact htallies.effect
  | abandon _ _ _ habandons => exact habandons.effect
  | ask _ _ _ _ _ hprepares => exact hprepares.effect
  | newFlow _ _ _ hgrants hopens => exact hopens.effect hgrants
  | packet env pkt ptr _ hptr hpkt =>
    rcases pktMsg_spec hpkt with hledger | ⟨hhave, hledger⟩ <;> rw [hledger]
    · exact .unchanged _
    · exact .dropReplica env pkt ptr hptr hhave
  | unserved env pkt _ _ _ hpkt =>
    have hblank : (rt.bind (flowKeyOf pkt) deadendFlowActor).ledger.DeadendBlank := hdeadend
    exact absurd ((pktMsg_deadend hblank env pkt).symm.trans hpkt) (by simp)
  | ping => exact .unchanged _
  | route _ _ _ _ _ _ _ _ _ _ hupdated =>
    rw [ledger_post, updateRoute_spec hupdated]
    exact .unchanged _
  | mirror _ _ _ _ _ _ _ _ _ _ _ _ _ hrep =>
    rw [repFsPktMsg_spec hrep]
    exact .unchanged _
  | bindDeadend env senderRtid message inputHeader outputHeader key states pkt _ hrecv hbody hnone hempty hrep =>
    rw [repFsPktMsg_spec hrep, ledger_bind]
    exact .bindDeadend env senderRtid message inputHeader outputHeader key states pkt hrecv hbody hnone hempty
  | arrive env senderRtid message ptr states _ _ hdelivers hbody hreplay =>
    rw [replayBuffer_spec _ hreplay, ledger_arriving]
    exact .arrive env senderRtid message ptr states hdelivers hbody
  | complete env senderRtid message ptr hdelivers hbody =>
    rw [ledger_removed, ledger_settled]
    exact .complete env senderRtid message ptr hdelivers hbody
  | recovered env senderRtid message ptr _ hdelivers hbody =>
    rw [ledger_recovered]
    exact .endRecovery _ ptr true (answers_message .replication env senderRtid hdelivers (by rw [hbody]; rfl))
  | notRecovered env ptr kind _ harmed htype =>
    rw [ledger_notRecovered]
    exact .endRecovery _ ptr false (answers_fire env harmed htype)
  | idleAgain env ptr kind harmed htype =>
    rw [← card_timer] at harmed htype
    rw [ledger_modifyActor, ledger_invalidate, actors_invalidate, Ledger.disarm, Ledger.modifyCard,
      Ledger.setCard_setCard]
    exact .idleAgain env ptr kind harmed htype
  | leave env ptr kind harmed htype hleaves =>
    rw [← card_timer] at harmed htype
    rw [ledger_removed, ledger_left]
    exact .expire env ptr kind harmed htype hleaves.1

end Runtime

end NfvActor.Actor
