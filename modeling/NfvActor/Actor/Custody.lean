import Mathlib.Tactic
import NfvActor.Foundation.IndexPool
import NfvActor.Actor.Refinement

/-!
# Custody of flow actors

An actor that the allocator has handed out is live. In every run the tables lead to live actors, an armed idle
timer belongs to a live actor, and the deadend actor stays as it was handed out. The effects that hand out or
take back are listed by `Transfer`.
-/

namespace NfvActor.Actor

open NfvActor.Foundation
open NfvActor.Actor.Runtime (deadendFlowActor)
open NfvActor.Reliable (Packet)
open Function

namespace Ledger

variable {σ : Type} (ledger : Ledger) (ptr : ℕ) (ring : RingBuffer ℕ)

/-- The actor is handed out. -/
def Live (ledger : Ledger) (ptr : ℕ) : Prop := ptr ∈ ledger.allocator.outstanding

/-- Two ledgers that differ in the state of one actor, not in what it holds, and in lists and counters. -/
structure Touches (ledger ledger' : Ledger) (ptr : ℕ) : Prop where
  allocator : ledger'.allocator = ledger.allocator
  nextFlowActorId : ledger'.nextFlowActorId = ledger.nextFlowActorId
  htable : ledger'.htable = ledger.htable
  actoridHtable : ledger'.actoridHtable = ledger.actoridHtable
  serviceChain : ledger'.serviceChain = ledger.serviceChain
  free : ledger'.free = ledger.free
  others : ∀ other, other ≠ ptr → ledger'.cards other = ledger.cards other
  actorId : (ledger'.cards ptr).actorId = (ledger.cards ptr).actorId
  flowKey : (ledger'.cards ptr).flowKey = (ledger.cards ptr).flowKey
  coordinatorSet : (ledger'.cards ptr).coordinatorSet = (ledger.cards ptr).coordinatorSet
  chain : (ledger'.cards ptr).chain = (ledger.cards ptr).chain

namespace Touches

variable {ledger ledger' ledger'' : Ledger} {ptr : ℕ}

theorem of_cards_eq (hallocator : ledger'.allocator = ledger.allocator)
    (hnext : ledger'.nextFlowActorId = ledger.nextFlowActorId) (hhtable : ledger'.htable = ledger.htable)
    (hids : ledger'.actoridHtable = ledger.actoridHtable)
    (hchain : ledger'.serviceChain = ledger.serviceChain) (hfree : ledger'.free = ledger.free)
    (hcards : ledger'.cards = ledger.cards) : ledger.Touches ledger' ptr where
  allocator := hallocator
  nextFlowActorId := hnext
  htable := hhtable
  actoridHtable := hids
  serviceChain := hchain
  free := hfree
  others := fun _ _ ↦ by rw [hcards]
  actorId := by rw [hcards]
  flowKey := by rw [hcards]
  coordinatorSet := by rw [hcards]
  chain := by rw [hcards]

theorem trans (h : ledger.Touches ledger' ptr) (h' : ledger'.Touches ledger'' ptr) :
    ledger.Touches ledger'' ptr where
  allocator := h'.allocator.trans h.allocator
  nextFlowActorId := h'.nextFlowActorId.trans h.nextFlowActorId
  htable := h'.htable.trans h.htable
  actoridHtable := h'.actoridHtable.trans h.actoridHtable
  serviceChain := h'.serviceChain.trans h.serviceChain
  free := h'.free.trans h.free
  others := fun other hother ↦ (h'.others other hother).trans (h.others other hother)
  actorId := h'.actorId.trans h.actorId
  flowKey := h'.flowKey.trans h.flowKey
  coordinatorSet := h'.coordinatorSet.trans h.coordinatorSet
  chain := h'.chain.trans h.chain

theorem modifyCard {change : Card → Card} (hid : (change (ledger.cards ptr)).actorId =
      (ledger.cards ptr).actorId) (hkey : (change (ledger.cards ptr)).flowKey = (ledger.cards ptr).flowKey)
    (hset : (change (ledger.cards ptr)).coordinatorSet = (ledger.cards ptr).coordinatorSet)
    (hchain : (change (ledger.cards ptr)).chain = (ledger.cards ptr).chain) :
    ledger.Touches (ledger.modifyCard ptr change) ptr where
  allocator := rfl
  nextFlowActorId := rfl
  htable := rfl
  actoridHtable := rfl
  serviceChain := rfl
  free := rfl
  others := fun _ hother ↦ update_of_ne hother _ _
  actorId := by rw [Ledger.modifyCard, cards_setCard, hid]
  flowKey := by rw [Ledger.modifyCard, cards_setCard, hkey]
  coordinatorSet := by rw [Ledger.modifyCard, cards_setCard, hset]
  chain := by rw [Ledger.modifyCard, cards_setCard, hchain]

theorem disarm (ledger : Ledger) (ptr : ℕ) (kind : TimerKind) :
    ledger.Touches (ledger.disarm ptr kind) ptr := by
  cases kind <;> exact modifyCard rfl rfl rfl rfl

theorem normal (ledger : Ledger) (ptr : ℕ) : ledger.Touches (ledger.modifyCard ptr fun card ↦
    { card with currentState := .normalProcessing }) ptr :=
  modifyCard rfl rfl rfl rfl

theorem giveUp (ledger : Ledger) (ptr : ℕ) : ledger.Touches (ledger.giveUp ptr) ptr :=
  (normal ledger ptr).trans (of_cards_eq rfl rfl rfl rfl rfl rfl rfl)

theorem settle (ledger : Ledger) (ptr : ℕ) : ledger.Touches (ledger.settle ptr) ptr :=
  ((disarm ledger ptr .migration).trans (normal _ ptr)).trans (of_cards_eq rfl rfl rfl rfl rfl rfl rfl)

theorem depart (ledger : Ledger) (ptr : ℕ) : ledger.Touches (ledger.depart ptr) ptr :=
  of_cards_eq rfl rfl rfl rfl rfl rfl rfl

theorem request (ledger : Ledger) (ptr : ℕ) (state : FlowState) (timer : ActorTimer) :
    ledger.Touches (ledger.request ptr state timer) ptr :=
  modifyCard rfl rfl rfl rfl

theorem arrive (ledger : Ledger) (ptr : ℕ) : ledger.Touches (ledger.arrive ptr) ptr :=
  (normal ledger ptr).trans (of_cards_eq rfl rfl rfl rfl rfl rfl rfl)

theorem awaitRecovery (ledger : Ledger) (ptr : ℕ) (requestMsgId : UInt32) :
    ledger.Touches (ledger.awaitRecovery ptr requestMsgId) ptr :=
  modifyCard rfl rfl rfl rfl

theorem endRecovery (ledger : Ledger) (ptr : ℕ) (succeeded : Bool) :
    ledger.Touches (ledger.endRecovery ptr succeeded) ptr := by
  have hdrop : (ledger.disarm ptr .replication).Touches
      ((ledger.disarm ptr .replication).dropReplica ptr) ptr := modifyCard rfl rfl rfl rfl
  exact ((disarm ledger ptr .replication).trans hdrop).trans (of_cards_eq rfl rfl rfl rfl rfl rfl rfl)

theorem storage (ledger : Ledger) (ptr : ℕ) (runtimeId : UInt32) :
    ledger.Touches (ledger.addStorage runtimeId) ptr ∧
      ledger.Touches (ledger.removeStorage runtimeId) ptr := by
  unfold addStorage removeStorage
  cases ledger.replicaFlowLists runtimeId <;>
    exact ⟨of_cards_eq rfl rfl rfl rfl rfl rfl rfl, of_cards_eq rfl rfl rfl rfl rfl rfl rfl⟩

end Touches

/-- The steps that look for an actor to give to a flow. -/
inductive Admits (ledger : Ledger) : Input σ → FlowKey → Prop
  | packet (env : Environment σ) (pkt : Packet) : ledger.htable (flowKeyOf pkt) = none →
      Admits ledger (.packet env pkt) (flowKeyOf pkt)
  | target (env : Environment σ) (senderRtid : UInt32) (message : Message σ)
      (inputHeader outputHeader : EtherHeader) (key : FlowKey) :
      message.recvActorId = coordinatorActorId →
      message.body = .createMigrationTargetActor inputHeader outputHeader key →
      Admits ledger (.message env senderRtid message) key
  | replica (env : Environment σ) (senderRtid : UInt32) (message : Message σ)
      (inputHeader outputHeader : EtherHeader) (key : FlowKey) (states : ℕ → σ) (pkt : Packet) :
      message.recvActorId = coordinatorActorId →
      message.body = .replication inputHeader outputHeader key states pkt →
      ledger.htable key = none → Admits ledger (.message env senderRtid message) key

/-- The step hands an actor the flow state of a migration. -/
def ArrivesAt (ledger : Ledger) (ptr : ℕ) : Input σ → Prop
  | .message _ _ message => ledger.Delivers message ptr ∧ ∃ states, message.body = .migrateFlowState states
  | _ => False

/-- The step takes an actor off the active list to migrate it. -/
def Departs (ledger : Ledger) (ptr : ℕ) : Input σ → Prop
  | .migrationIteration _ => ledger.migration.qouta ≠ 0 ∧
    ledger.links.peekFirst .activeFlows = some (.actor ptr)
  | _ => False

/-- How a step that hands nothing out or back changes the card of its actor. -/
inductive Turn (ledger : Ledger) (input : Input σ) (ptr : ℕ) : Card → Prop
  | stay : Turn ledger input ptr (ledger.cards ptr)
  | dropReplica : (ledger.cards ptr).replicationState = .haveReplica →
      Turn ledger input ptr { ledger.cards ptr with replicationState := .noReplica }
  | idleAgain : Turn ledger input ptr { ledger.cards ptr with idleTimer := ⟨idleMessageId, .checkIdle⟩ }
  | refuse : ledger.Departs ptr input →
      Turn ledger input ptr { ledger.cards ptr with currentState := .normalProcessing }
  | depart (requestMsgId : UInt32) : ledger.Departs ptr input →
      (ledger.cards ptr).replicationState ≠ .haveReplica →
      Turn ledger input ptr { ledger.cards ptr with
        currentState := .migrationSource
        migrationTimer := ⟨requestMsgId, .startMigrationTimeout⟩ }
  | abandon : ledger.Answers input ptr .migration →
      Turn ledger input ptr { ledger.cards ptr with
        currentState := .normalProcessing
        migrationTimer := (ledger.cards ptr).migrationTimer.invalidate }
  | request (state : FlowState) (timer : ActorTimer) : ledger.Answers input ptr .migration →
      state = (ledger.cards ptr).currentState ∨ state = .failureProcessing ∨
        state = .afterRouteChange →
      Turn ledger input ptr { ledger.cards ptr with currentState := state, migrationTimer := timer }
  | arrive : ledger.ArrivesAt ptr input →
      Turn ledger input ptr { ledger.cards ptr with currentState := .normalProcessing }
  | awaitRecovery (requestMsgId : UInt32) :
      (∃ env, input = .recoveryIteration env) ∨ ledger.Answers input ptr .replication →
      Turn ledger input ptr { ledger.cards ptr with
        replicationTimer := ⟨requestMsgId, .replicaRecoverTimeout⟩ }
  | endRecovery : ledger.Answers input ptr .replication →
      Turn ledger input ptr { ledger.cards ptr with
        replicationTimer := (ledger.cards ptr).replicationTimer.invalidate
        replicationState := .noReplica }

/-- The effects that hand out or take back an actor or a slot, or bind a flow. -/
inductive Transfer (ledger : Ledger) : Input σ → Ledger → Prop
  | none (input : Input σ) (ledger' : Ledger) (ptr : ℕ) (card : Card) : ledger.Touches ledger' ptr →
      ledger'.cards ptr = card → ledger.Turn input ptr card → Transfer ledger input ledger'
  | enroll (input : Input σ) (ptr : ℕ) (ring : RingBuffer ℕ) (head : ListNode) (key : FlowKey)
      (state : FlowState) (replication : ReplicationState) :
      ledger.allocator.pop = some (ptr, ring) → ledger.Admits input key →
      state = .normalProcessing ∨ state = .migrationTarget →
      (replication = .haveReplica → input.replicaItem.isSome = true) →
      Transfer ledger input (ledger.enroll ptr ring head key state replication)
  | bindDeadend (env : Environment σ) (senderRtid : UInt32) (message : Message σ)
      (inputHeader outputHeader : EtherHeader) (key : FlowKey) (states : ℕ → σ) (pkt : Packet) :
      message.recvActorId = coordinatorActorId →
      message.body = .replication inputHeader outputHeader key states pkt →
      ledger.htable key = none → ledger.allocator.pop = none →
      Transfer ledger (.message env senderRtid message) (ledger.bind key deadendFlowActor)
  | expire (env : Environment σ) (ptr : ℕ) (kind : TimerKind) : ((ledger.cards ptr).timer kind).Armed →
      ((ledger.cards ptr).timer kind).msgType = .checkIdle →
      Transfer ledger (.fire env ptr kind) (((ledger.disarm ptr .idle).release ptr).remove ptr)
  | complete (env : Environment σ) (senderRtid : UInt32) (message : Message σ) (ptr : ℕ) :
      ledger.Delivers message ptr →
      message.body = .migrateFlowStateResponse (ledger.cards ptr).migrationTimer.requestMsgId →
      Transfer ledger (.message env senderRtid message) (ledger.complete ptr)

theorem cards_giveUp : (ledger.giveUp ptr).cards ptr =
    { ledger.cards ptr with currentState := .normalProcessing } :=
  cards_setCard ledger ptr _

theorem cards_request (state : FlowState) (timer : ActorTimer) :
    (ledger.request ptr state timer).cards ptr =
      { ledger.cards ptr with currentState := state, migrationTimer := timer } :=
  cards_setCard ledger ptr _

theorem cards_awaitRecovery (requestMsgId : UInt32) :
    (ledger.awaitRecovery ptr requestMsgId).cards ptr =
      { ledger.cards ptr with replicationTimer := ⟨requestMsgId, .replicaRecoverTimeout⟩ } :=
  cards_setCard ledger ptr _

theorem cards_endRecovery (succeeded : Bool) :
    (ledger.endRecovery ptr succeeded).cards ptr = { ledger.cards ptr with
      replicationTimer := (ledger.cards ptr).replicationTimer.invalidate
      replicationState := .noReplica } := by
  refine (cards_setCard (ledger.disarm ptr .replication) ptr _).trans ?_
  rw [disarm, modifyCard, cards_setCard]
  rfl

theorem Effect.transfer {ledger ledger' : Ledger} {input : Input σ} (h : ledger.Effect input ledger') :
    ledger.Transfer input ledger' := by
  have same {ledger' : Ledger} (hcards : ledger'.cards = ledger.cards)
      (htouch : ledger.Touches ledger' 0) : ledger.Transfer input ledger' :=
    .none input ledger' 0 _ htouch (by rw [hcards]) .stay
  cases h with
  | unchanged | skipMigration | recoveryDone | migrateTo =>
    exact same rfl (.of_cards_eq rfl rfl rfl rfl rfl rfl rfl)
  | dropReplica _ _ ptr _ hhave =>
    exact .none _ _ ptr _ (.modifyCard rfl rfl rfl rfl) (cards_setCard ledger ptr _) (.dropReplica hhave)
  | newFlow env pkt ptr ring replication hnone hpop _ hitem =>
    exact .enroll _ ptr ring .activeFlows _ .normalProcessing replication hpop (.packet env pkt hnone)
      (.inl rfl) hitem
  | newTarget env senderRtid message inputHeader outputHeader key ptr ring hrecv hbody hpop =>
    exact .enroll _ ptr ring .activeFlows key .migrationTarget .noReplica hpop
      (.target env senderRtid message inputHeader outputHeader key hrecv hbody) (.inr rfl) nofun
  | newReplica env senderRtid message inputHeader outputHeader key states pkt ptr ring head hrecv hbody
      hnone hpop =>
    exact .enroll _ ptr ring (.replicaFlows head) key .normalProcessing .isReplica hpop
      (.replica env senderRtid message inputHeader outputHeader key states pkt hrecv hbody hnone) (.inl rfl)
      nofun
  | bindDeadend env senderRtid message inputHeader outputHeader key states pkt hrecv hbody hnone hpop =>
    exact .bindDeadend env senderRtid message inputHeader outputHeader key states pkt hrecv hbody hnone hpop
  | idleAgain _ ptr =>
    exact .none _ _ ptr _ (.modifyCard rfl rfl rfl rfl) (cards_setCard ledger ptr _) .idleAgain
  | expire env ptr kind harmed htype => exact .expire env ptr kind harmed htype
  | refuse _ ptr hqouta hpeek =>
    exact .none _ _ ptr _ ((Touches.depart ledger ptr).trans (.giveUp _ ptr)) (cards_giveUp _ ptr)
      (.refuse ⟨hqouta, hpeek⟩)
  | depart _ ptr requestMsgId hqouta hpeek _ hreplica =>
    exact .none _ _ ptr _ ((Touches.depart ledger ptr).trans (.request _ ptr _ _)) (cards_request _ ptr _ _)
      (.depart requestMsgId ⟨hqouta, hpeek⟩ hreplica)
  | abandon _ ptr hanswers =>
    refine .none _ _ ptr _ ((Touches.disarm ledger ptr .migration).trans (.giveUp _ ptr)) ?_ (.abandon hanswers)
    rw [cards_giveUp, disarm, modifyCard, cards_setCard]
    rfl
  | request _ ptr state timer hanswers hstate =>
    exact .none _ _ ptr _ (.request ledger ptr state timer) (cards_request ledger ptr state timer)
      (.request state timer hanswers hstate)
  | arrive _ _ _ ptr states hdelivers hbody =>
    exact .none _ _ ptr _ (.arrive ledger ptr) (cards_setCard ledger ptr _) (.arrive ⟨hdelivers, states, hbody⟩)
  | complete env senderRtid message ptr hdelivers hbody =>
    exact .complete env senderRtid message ptr hdelivers hbody
  | startRecovery env ptr _ requestMsgId =>
    have hunlink : ledger.Touches (ledger.unlink ptr) ptr := .of_cards_eq rfl rfl rfl rfl rfl rfl rfl
    exact .none _ _ ptr _ ((hunlink.trans (.awaitRecovery _ ptr requestMsgId)).trans
      (.of_cards_eq rfl rfl rfl rfl rfl rfl rfl)) (cards_awaitRecovery (ledger.unlink ptr) ptr requestMsgId)
      (.awaitRecovery requestMsgId (.inl ⟨env, rfl⟩))
  | retryRecovery _ ptr requestMsgId hanswers =>
    exact .none _ _ ptr _ (.awaitRecovery ledger ptr requestMsgId) (cards_awaitRecovery ledger ptr requestMsgId)
      (.awaitRecovery requestMsgId (.inr hanswers))
  | endRecovery _ ptr succeeded hanswers =>
    exact .none _ _ ptr _ (.endRecovery ledger ptr succeeded) (cards_endRecovery ledger ptr succeeded)
      (.endRecovery hanswers)
  | recover => exact same rfl (.of_cards_eq rfl rfl rfl rfl rfl rfl rfl)
  | addStorage runtimeId =>
    refine same ?_ (Touches.storage ledger 0 runtimeId).1
    unfold Ledger.addStorage
    split <;> rfl
  | removeStorage runtimeId =>
    refine same ?_ (Touches.storage ledger 0 runtimeId).2
    unfold Ledger.removeStorage
    split <;> rfl

/-- The card of an actor that has just been admitted. -/
def admittedCard (ledger : Ledger) (ptr : ℕ) (key : FlowKey) (state : FlowState)
    (replication : ReplicationState) : Card :=
  { ledger.cards ptr with
    actorId := ledger.nextFlowActorId
    flowKey := key
    coordinatorSet := true
    chain := (FreeSlots.take ledger.serviceChain [] ledger.free).1
    idleTimer := ⟨idleMessageId, .checkIdle⟩
    currentState := state
    replicationState := replication }

theorem cards_enroll (head : ListNode) (key : FlowKey) (state : FlowState) (replication : ReplicationState) :
    (ledger.enroll ptr ring head key state replication).cards =
      update ledger.cards ptr (ledger.admittedCard ptr key state replication) := by
  simp [enroll, bind, start, occupy, addTail, modifyCard, setCard, admittedCard]

theorem actoridHtable_enroll (head : ListNode) (key : FlowKey) (state : FlowState)
    (replication : ReplicationState) :
    (ledger.enroll ptr ring head key state replication).actoridHtable =
      update ledger.actoridHtable ledger.nextFlowActorId (some ptr) := by
  simp [enroll, bind, start, occupy, addTail, modifyCard, setCard]

/-- The card of an actor that has just been removed. -/
def removedCard (card : Card) : Card :=
  { card with
    actorId := invalidFlowActorId
    idleTimer := card.idleTimer.invalidate
    migrationTimer := card.migrationTimer.invalidate
    replicationTimer := card.replicationTimer.invalidate }

theorem not_armed_removedCard (card : Card) (kind : TimerKind) : ¬((removedCard card).timer kind).Armed := by
  cases kind <;> simp [removedCard, Card.timer, ActorTimer.invalidate, ActorTimer.Armed]

theorem remove_eq {ptr : ℕ} (hptr : ptr ≠ deadendFlowActor) :
    ledger.remove ptr = { ledger with
      htable := update ledger.htable (ledger.cards ptr).flowKey none
      actoridHtable := update ledger.actoridHtable (ledger.cards ptr).actorId none
      links := ledger.links.del (.actor ptr)
      allocator := (ledger.allocator.push ptr).2
      cards := update ledger.cards ptr (removedCard (ledger.cards ptr)) } := by
  rw [remove, if_neg hptr]
  rfl

/-! ## The invariant of all runs -/

/-- What holds of the pool of actors and of the tables in every run. -/
structure Sound (ledger : Ledger) : Prop where
  maxSize : ledger.allocator.maxSize = numFlowActors
  pool : ledger.allocator.IsPool
  deadend_live : ledger.Live deadendFlowActor
  blank : ledger.DeadendBlank
  isolated : ledger.links.Isolated (.actor deadendFlowActor)
  typed : ∀ ptr kind, ((ledger.cards ptr).timer kind).Armed →
    ((ledger.cards ptr).timer kind).msgType.kind = kind
  idle_live : ∀ ptr, (ledger.cards ptr).idleTimer.Armed → ledger.Live ptr
  initialised : ∀ ptr, ledger.Live ptr → ptr ≠ deadendFlowActor →
    (ledger.cards ptr).coordinatorSet = true
  flow_live : ∀ key ptr, ledger.htable key = some ptr → ledger.Live ptr
  flow_key : ∀ key ptr, ledger.htable key = some ptr → ptr ≠ deadendFlowActor →
    (ledger.cards ptr).flowKey = key
  id_live : ∀ id ptr, ledger.actoridHtable id = some ptr → ledger.Live ptr
  id_eq : ∀ id ptr, ledger.actoridHtable id = some ptr → (ledger.cards ptr).actorId = id

namespace Sound

variable {ledger ledger' : Ledger} {ptr : ℕ} {kind : TimerKind} {head : ListNode} {ring : RingBuffer ℕ}
  {replication : ReplicationState} {change : Card → Card}

variable (h : ledger.Sound)

include h

theorem ne_deadend_of_armed (harmed : ((ledger.cards ptr).timer kind).Armed) : ptr ≠ deadendFlowActor := by
  rintro rfl
  exact h.blank.timers kind harmed

theorem ne_deadend_of_set (hset : (ledger.cards ptr).coordinatorSet = true) : ptr ≠ deadendFlowActor := by
  rintro rfl
  rw [h.blank.coordinator] at hset
  exact absurd hset (by decide)

theorem ne_deadend_of_answers {input : Input σ} (hanswers : ledger.Answers input ptr kind) :
    ptr ≠ deadendFlowActor := by
  cases hanswers with
  | timeout _ _ _ harmed => exact h.ne_deadend_of_armed harmed
  | response _ _ _ _ _ hdelivers => exact h.ne_deadend_of_set hdelivers.2.2

/-- A timer that triggers `check_idle_t` is the idle timer of a live actor. -/
theorem live_of_checkIdle (harmed : ((ledger.cards ptr).timer kind).Armed)
    (htype : ((ledger.cards ptr).timer kind).msgType = .checkIdle) : ledger.Live ptr := by
  have hkind := h.typed ptr kind harmed
  rw [htype] at hkind
  subst hkind
  exact h.idle_live ptr harmed

theorem ne_deadend_of_peekFirst (hhead : head ≠ .actor deadendFlowActor)
    (hpeek : ledger.links.peekFirst head = some (.actor ptr)) : ptr ≠ deadendFlowActor := by
  rintro rfl
  exact h.isolated.peekFirst hhead hpeek

/-- A change that concerns one actor other than the deadend. -/
theorem alter (hptr : ptr ≠ deadendFlowActor) (hsize : ledger'.allocator.maxSize = ledger.allocator.maxSize)
    (hpool : ledger'.allocator.IsPool) (hisolated : ledger'.links.Isolated (.actor deadendFlowActor))
    (hothers : ∀ other, other ≠ ptr → ledger'.cards other = ledger.cards other)
    (hlive : ∀ other, other ≠ ptr → (ledger'.Live other ↔ ledger.Live other))
    (htyped : ∀ kind, ((ledger'.cards ptr).timer kind).Armed →
      ((ledger'.cards ptr).timer kind).msgType.kind = kind)
    (hidle : (ledger'.cards ptr).idleTimer.Armed → ledger'.Live ptr)
    (hset : ledger'.Live ptr → (ledger'.cards ptr).coordinatorSet = true)
    (hflow : ∀ key, ledger'.htable key = some ptr → ledger'.Live ptr ∧ (ledger'.cards ptr).flowKey = key)
    (hflows : ∀ key other, other ≠ ptr → ledger'.htable key = some other → ledger.htable key = some other)
    (hid : ∀ id, ledger'.actoridHtable id = some ptr → ledger'.Live ptr ∧ (ledger'.cards ptr).actorId = id)
    (hids : ∀ id other, other ≠ ptr → ledger'.actoridHtable id = some other →
      ledger.actoridHtable id = some other) : ledger'.Sound := by
  have hdeadend := Ne.symm hptr
  have hblank : ledger'.DeadendBlank := by
    rw [DeadendBlank, hothers _ hdeadend]
    exact h.blank
  refine ⟨hsize.trans h.maxSize, hpool, (hlive _ hdeadend).2 h.deadend_live, hblank, hisolated,
    fun other kind ↦ ?_, fun other ↦ ?_, fun other ↦ ?_, fun key other ↦ ?_, fun key other ↦ ?_,
    fun id other ↦ ?_, fun id other ↦ ?_⟩
  all_goals rcases eq_or_ne other ptr with rfl | hne
  · exact htyped kind
  · rw [hothers other hne]
    exact h.typed other kind
  · exact hidle
  · rw [hothers other hne, hlive other hne]
    exact h.idle_live other
  · exact fun hlive _ ↦ hset hlive
  · rw [hothers other hne, hlive other hne]
    exact h.initialised other
  · exact fun hentry ↦ (hflow key hentry).1
  · rw [hlive other hne]
    exact fun hentry ↦ h.flow_live key other (hflows key other hne hentry)
  · exact fun hentry _ ↦ (hflow key hentry).2
  · rw [hothers other hne]
    exact fun hentry ↦ h.flow_key key other (hflows key other hne hentry)
  · exact fun hentry ↦ (hid id hentry).1
  · rw [hlive other hne]
    exact fun hentry ↦ h.id_live id other (hids id other hne hentry)
  · exact fun hentry ↦ (hid id hentry).2
  · rw [hothers other hne]
    exact fun hentry ↦ h.id_eq id other (hids id other hne hentry)

theorem touch (htouch : ledger.Touches ledger' ptr) (hptr : ptr ≠ deadendFlowActor)
    (hisolated : ledger'.links.Isolated (.actor deadendFlowActor))
    (hidle : (ledger'.cards ptr).idleTimer.Armed → ledger.Live ptr)
    (htyped : ∀ kind, ((ledger'.cards ptr).timer kind).Armed →
      ((ledger'.cards ptr).timer kind).msgType.kind = kind) : ledger'.Sound := by
  have hlive : ∀ other, ledger'.Live other ↔ ledger.Live other := by
    intro other
    rw [Live, Live, htouch.allocator]
  refine h.alter hptr (by rw [htouch.allocator]) (htouch.allocator ▸ h.pool) hisolated htouch.others
    (fun other _ ↦ hlive other) htyped (fun harmed ↦ (hlive ptr).2 (hidle harmed)) ?_ ?_ ?_ ?_ ?_ <;>
    simp only [hlive, htouch.coordinatorSet, htouch.htable, htouch.flowKey, htouch.actoridHtable,
      htouch.actorId]
  · exact fun hlive ↦ h.initialised ptr hlive hptr
  · exact fun key hentry ↦ ⟨h.flow_live key ptr hentry, h.flow_key key ptr hentry hptr⟩
  · exact fun _ _ _ hentry ↦ hentry
  · exact fun id hentry ↦ ⟨h.id_live id ptr hentry, h.id_eq id ptr hentry⟩
  · exact fun _ _ _ hentry ↦ hentry

/-- The lists, the counters and the free slots do not matter. -/
theorem relist (hallocator : ledger'.allocator = ledger.allocator) (hcards : ledger'.cards = ledger.cards)
    (hhtable : ledger'.htable = ledger.htable) (hids : ledger'.actoridHtable = ledger.actoridHtable)
    (hisolated : ledger'.links.Isolated (.actor deadendFlowActor)) : ledger'.Sound := by
  obtain ⟨⟩ := ledger'
  dsimp only at hallocator hcards hhtable hids
  subst hallocator hcards hhtable hids
  exact ⟨h.maxSize, h.pool, h.deadend_live, h.blank, hisolated, h.typed, h.idle_live, h.initialised,
    h.flow_live, h.flow_key, h.id_live, h.id_eq⟩

variable (hpop : ledger.allocator.pop = some (ptr, ring))

include hpop

theorem ne_deadend_of_pop : ptr ≠ deadendFlowActor := by
  rintro rfl
  exact (h.pool.pop hpop).2.1 h.deadend_live

theorem live_enroll {key : FlowKey} {state : FlowState} (other : ℕ) :
    (ledger.enroll ptr ring head key state replication).Live other ↔ other = ptr ∨ ledger.Live other := by
  have hset : (ledger.enroll ptr ring head key state replication).allocator.outstanding =
      insert ptr ledger.allocator.outstanding := (h.pool.pop hpop).2.2
  rw [Live, Live, hset, Finset.mem_insert]

theorem enroll {key : FlowKey} {state : FlowState} (hhead : head ≠ .actor deadendFlowActor) :
    (ledger.enroll ptr ring head key state replication).Sound := by
  have hptr := h.ne_deadend_of_pop hpop
  have hlive : (ledger.enroll ptr ring head key state replication).Live ptr :=
    (h.live_enroll hpop ptr).2 (.inl rfl)
  have hcards := ledger.cards_enroll ptr ring head key state replication
  have hids := ledger.actoridHtable_enroll ptr ring head key state replication
  have hself : (ledger.enroll ptr ring head key state replication).cards ptr =
      ledger.admittedCard ptr key state replication := by rw [hcards, update_self]
  have hfresh : ¬ledger.Live ptr := (h.pool.pop hpop).2.1
  refine h.alter hptr (RingBuffer.contents_pop hpop).2 (h.pool.pop hpop).1
    (h.isolated.addTail hhead (by simpa using hptr))
    (fun other hne ↦ by rw [hcards, update_of_ne hne])
    (fun other hne ↦ (h.live_enroll hpop other).trans (or_iff_right hne)) ?_ (fun _ ↦ hlive)
    (fun _ ↦ by rw [hself]; rfl) ?_ ?_ ?_ ?_
  · intro kind harmed
    rw [hself] at harmed ⊢
    cases kind with
    | idle => rfl
    | migration => exact h.typed ptr .migration harmed
    | replication => exact h.typed ptr .replication harmed
  · intro key' hentry
    change update ledger.htable key (some ptr) key' = some ptr at hentry
    rw [hself]
    by_cases heq : key' = key
    · exact ⟨hlive, heq.symm⟩
    · rw [update_of_ne heq] at hentry
      exact absurd (h.flow_live key' ptr hentry) hfresh
  · intro key' other hne hentry
    change update ledger.htable key (some ptr) key' = some other at hentry
    rw [update_apply] at hentry
    split at hentry
    · exact absurd (Option.some.inj hentry).symm hne
    · exact hentry
  · intro id hentry
    rw [hids] at hentry
    rw [hself]
    by_cases heq : id = ledger.nextFlowActorId
    · exact ⟨hlive, heq.symm⟩
    · rw [update_of_ne heq] at hentry
      exact absurd (h.id_live id ptr hentry) hfresh
  · intro id other hne hentry
    rw [hids, update_apply] at hentry
    split at hentry
    · exact absurd (Option.some.inj hentry).symm hne
    · exact hentry

omit hpop

theorem live_remove (hlive : ledger.Live ptr) (hptr : ptr ≠ deadendFlowActor) (other : ℕ) :
    (ledger.remove ptr).Live other ↔ other ≠ ptr ∧ ledger.Live other := by
  rw [Live, ledger.remove_eq hptr, (h.pool.push hlive).2.1, Finset.mem_erase, Live]

theorem remove (hlive : ledger.Live ptr) (hptr : ptr ≠ deadendFlowActor) : (ledger.remove ptr).Sound := by
  have hlive' := h.live_remove hlive hptr
  have heq := ledger.remove_eq hptr
  have hself : (ledger.remove ptr).cards ptr = removedCard (ledger.cards ptr) := by simp [heq]
  have hoff : ∀ kind, ¬(((ledger.remove ptr).cards ptr).timer kind).Armed := by
    rw [hself]
    exact not_armed_removedCard _
  refine h.alter hptr ?_ (by rw [heq]; exact (h.pool.push hlive).1) ?_
    (fun other hne ↦ by simp [heq, hne]) (fun other hne ↦ (hlive' other).trans (and_iff_right hne))
    (fun kind harmed ↦ absurd harmed (hoff kind)) (fun harmed ↦ absurd harmed (hoff .idle))
    (fun hmem ↦ absurd rfl ((hlive' ptr).1 hmem).1) ?_ ?_ ?_ ?_
  · rw [heq]
    exact RingBuffer.maxSize_push _ _
  · rw [heq]
    exact h.isolated.del (by simpa using hptr)
  all_goals
    rw [heq]
    simp only [update_apply]
  · intro key hentry
    split at hentry
    · cases hentry
    · next hkey => exact absurd (h.flow_key key ptr hentry hptr).symm hkey
  · intro key other _ hentry
    split at hentry
    · cases hentry
    · exact hentry
  · intro id hentry
    split at hentry
    · cases hentry
    · next hkey => exact absurd (h.id_eq id ptr hentry).symm hkey
  · intro id other _ hentry
    split at hentry
    · cases hentry
    · exact hentry

/-- The deadend actor may be bound to any flow key. -/
theorem bindDeadend (key : FlowKey) : (ledger.bind key deadendFlowActor).Sound := by
  refine ⟨h.maxSize, h.pool, h.deadend_live, h.blank, h.isolated, h.typed, h.idle_live, h.initialised,
    ?_, ?_, ?_, ?_⟩
  · intro key' other hentry
    simp only [Ledger.bind, update_apply] at hentry
    split at hentry
    · cases hentry
      exact h.deadend_live
    · exact h.flow_live key' other hentry
  · intro key' other hentry hne
    simp only [Ledger.bind, update_apply] at hentry
    split at hentry
    · exact absurd (Option.some.inj hentry).symm hne
    · exact h.flow_key key' other hentry hne
  · intro id other hentry
    simp only [Ledger.bind, update_apply] at hentry
    split at hentry
    · cases hentry
      exact h.deadend_live
    · exact h.id_live id other hentry
  · intro id other hentry
    simp only [Ledger.bind, update_apply] at hentry
    split at hentry
    · next hid =>
      cases hentry
      exact hid.symm
    · exact h.id_eq id other hentry

variable (hptr : ptr ≠ deadendFlowActor)

include hptr

/-- The change of a card that uses the timers for what they are. -/
theorem modifyCard (htouch : ledger.Touches (ledger.modifyCard ptr change) ptr)
    (hidle : (change (ledger.cards ptr)).idleTimer.Armed → ledger.Live ptr)
    (htyped : ∀ kind, ((change (ledger.cards ptr)).timer kind).Armed →
      ((change (ledger.cards ptr)).timer kind).msgType.kind = kind) : (ledger.modifyCard ptr change).Sound := by
  refine h.touch htouch hptr h.isolated ?_ ?_ <;> rw [Ledger.modifyCard, cards_setCard]
  · exact hidle
  · exact htyped

/-- Timers that are not armed anew keep their use. -/
theorem disarm (kind : TimerKind) : (ledger.disarm ptr kind).Sound := by
  refine h.modifyCard hptr (.disarm ledger ptr kind) ?_ fun other harmed ↦ ?_
  · cases kind with
    | idle => exact fun harmed ↦ absurd rfl harmed
    | migration => exact h.idle_live ptr
    | replication => exact h.idle_live ptr
  · have htyped := h.typed ptr other
    cases kind <;> cases other <;>
      simp_all [Card.setTimer, Card.timer, ActorTimer.invalidate, ActorTimer.Armed]

/-- A change of state fields that leaves the timers alone. -/
theorem restate (htouch : ledger.Touches (ledger.modifyCard ptr change) ptr)
    (htimer : ∀ kind, (change (ledger.cards ptr)).timer kind = (ledger.cards ptr).timer kind) :
    (ledger.modifyCard ptr change).Sound := by
  have hidle : (change (ledger.cards ptr)).idleTimer = (ledger.cards ptr).idleTimer := htimer .idle
  refine h.modifyCard hptr htouch ?_ fun kind ↦ ?_
  · rw [hidle]
    exact h.idle_live ptr
  · rw [htimer]
    exact h.typed ptr kind

theorem activate : (ledger.addTail .activeFlows ptr).Sound :=
  h.relist rfl rfl rfl rfl (h.isolated.addTail (by simp) (by simpa using hptr))

theorem giveUp : (ledger.giveUp ptr).Sound := by
  have hactive := (h.restate hptr (.normal ledger ptr) (by intro kind; cases kind <;> rfl)).activate hptr
  exact hactive.relist rfl rfl rfl rfl hactive.isolated

omit hptr

theorem release (ptr : ℕ) : (ledger.release ptr).Sound := h.relist rfl rfl rfl rfl h.isolated

variable (hptr : ptr ≠ deadendFlowActor)

include hptr

theorem settle : (ledger.settle ptr).Sound := by
  have hnormal := (h.disarm hptr .migration).restate hptr (.normal _ ptr) (by intro kind; cases kind <;> rfl)
  exact hnormal.relist rfl rfl rfl rfl hnormal.isolated

theorem depart : (ledger.depart ptr).Sound := h.relist rfl rfl rfl rfl (h.isolated.del (by simpa using hptr))

theorem request (state : FlowState) {timer : ActorTimer} (hkind : timer.msgType.kind = .migration) :
    (ledger.request ptr state timer).Sound := by
  refine h.modifyCard hptr (.request ledger ptr state timer) (h.idle_live ptr) fun kind harmed ↦ ?_
  cases kind with
  | idle => exact h.typed ptr .idle harmed
  | migration => exact hkind
  | replication => exact h.typed ptr .replication harmed

theorem awaitRecovery (requestMsgId : UInt32) : (ledger.awaitRecovery ptr requestMsgId).Sound := by
  refine h.modifyCard hptr (.awaitRecovery ledger ptr requestMsgId) (h.idle_live ptr) fun kind harmed ↦ ?_
  cases kind with
  | idle => exact h.typed ptr .idle harmed
  | migration => exact h.typed ptr .migration harmed
  | replication => rfl

theorem dropReplica : (ledger.dropReplica ptr).Sound :=
  h.restate hptr (.modifyCard rfl rfl rfl rfl) (by intro kind; cases kind <;> rfl)

omit hptr

theorem storage (runtimeId : UInt32) :
    (ledger.addStorage runtimeId).Sound ∧ (ledger.removeStorage runtimeId).Sound := by
  unfold addStorage removeStorage
  cases ledger.replicaFlowLists runtimeId with
  | none => exact ⟨h.relist rfl rfl rfl rfl (h.isolated.itemInit (by simp)), h⟩
  | some =>
    exact ⟨h.relist rfl rfl rfl rfl (h.isolated.itemInit (by simp)), h.relist rfl rfl rfl rfl h.isolated⟩

theorem idleAgain (hptr : ptr ≠ deadendFlowActor) (hlive : ledger.Live ptr) :
    (ledger.modifyCard ptr fun card ↦ { card with idleTimer := ⟨idleMessageId, .checkIdle⟩ }).Sound := by
  refine h.modifyCard hptr (.modifyCard rfl rfl rfl rfl) (fun _ ↦ hlive) fun kind harmed ↦ ?_
  cases kind with
  | idle => rfl
  | migration => exact h.typed ptr .migration harmed
  | replication => exact h.typed ptr .replication harmed

theorem effect {input : Input σ} (heffect : ledger.Effect input ledger') : ledger'.Sound := by
  cases heffect with
  | unchanged => exact h
  | dropReplica _ _ _ _ hhave =>
    refine h.dropReplica ?_
    rintro rfl
    rw [h.blank.replication] at hhave
    exact absurd hhave (by decide)
  | newFlow _ _ _ _ _ _ hpop => exact h.enroll hpop (by simp)
  | newTarget _ _ _ _ _ _ _ _ _ _ hpop =>
    exact h.enroll hpop (by simp)
  | newReplica env senderRtid message inputHeader outputHeader key states pkt ptr ring head hrecv hbody
      hnone hpop =>
    exact h.enroll hpop (by simp)
  | bindDeadend => exact h.bindDeadend _
  | idleAgain _ _ _ harmed htype =>
    exact h.idleAgain (h.ne_deadend_of_armed harmed) (h.live_of_checkIdle harmed htype)
  | expire _ ptr _ harmed htype =>
    have hptr := h.ne_deadend_of_armed harmed
    exact ((h.disarm hptr .idle).release ptr).remove (h.live_of_checkIdle harmed htype) hptr
  | skipMigration | recoveryDone | migrateTo | recover => exact h.relist rfl rfl rfl rfl h.isolated
  | refuse _ _ _ hpeek =>
    have hptr := h.ne_deadend_of_peekFirst (by simp) hpeek
    exact (h.depart hptr).giveUp hptr
  | depart _ _ _ _ hpeek =>
    have hptr := h.ne_deadend_of_peekFirst (by simp) hpeek
    exact (h.depart hptr).request hptr _ rfl
  | abandon _ _ hanswers =>
    have hptr := h.ne_deadend_of_answers hanswers
    exact (h.disarm hptr .migration).giveUp hptr
  | request _ _ state _ hanswers _ hkind =>
    exact h.request (h.ne_deadend_of_answers hanswers) state hkind
  | arrive _ _ _ ptr _ hdelivers =>
    have hptr := h.ne_deadend_of_set hdelivers.2.2
    exact (h.restate hptr (.normal ledger ptr) (by intro kind; cases kind <;> rfl)).activate hptr
  | complete _ _ _ ptr hdelivers =>
    have hptr := h.ne_deadend_of_set hdelivers.2.2
    exact ((h.settle hptr).disarm hptr .idle).remove (h.id_live _ ptr hdelivers.2.1) hptr
  | startRecovery _ ptr _ requestMsgId hpeek =>
    have hptr := h.ne_deadend_of_peekFirst (by simp) hpeek
    have hunlinked : (ledger.unlink ptr).Sound :=
      h.relist rfl rfl rfl rfl (h.isolated.del (by simpa using hptr))
    have hawaits := hunlinked.awaitRecovery hptr requestMsgId
    exact hawaits.relist rfl rfl rfl rfl hawaits.isolated
  | retryRecovery _ _ requestMsgId hanswers =>
    exact h.awaitRecovery (h.ne_deadend_of_answers hanswers) requestMsgId
  | endRecovery _ _ _ hanswers =>
    have hptr := h.ne_deadend_of_answers hanswers
    have hactive := ((h.disarm hptr .replication).dropReplica hptr).activate hptr
    exact hactive.relist rfl rfl rfl rfl hactive.isolated
  | addStorage runtimeId => exact (h.storage runtimeId).1
  | removeStorage runtimeId => exact (h.storage runtimeId).2

end Sound

end Ledger

namespace Runtime

variable {σ τ : Type} (config : RuntimeConfig) (serviceChain : List ℕ) (code : ℕ → NetworkFunction σ τ)
  {rt : Runtime σ τ}

theorem contents_initialAllocator : initialAllocator.contents = List.range' 1 (numFlowActors - 1) := by
  rw [RingBuffer.contents, List.range'_eq_map_range]
  apply List.map_congr_left
  intro offset hoffset
  have hlt : offset < numFlowActors - 1 := List.mem_range.1 hoffset
  exact Nat.mod_eq_of_lt (by simp only [initialAllocator]; omega)

theorem live_boot {config : RuntimeConfig} {serviceChain : List ℕ} {code : ℕ → NetworkFunction σ τ}
    {zero : ℕ → σ} {sharedState : ℕ → τ} {ptr : ℕ}
    (hlive : (boot config serviceChain code zero sharedState).ledger.Live ptr) : ptr = deadendFlowActor := by
  obtain ⟨hlt, hout⟩ := RingBuffer.mem_outstanding.1 hlive
  change ptr < numFlowActors at hlt
  change ptr ∉ initialAllocator.contents at hout
  rw [contents_initialAllocator, List.mem_range'_1] at hout
  simp only [deadendFlowActor]
  omega

theorem blank_boot (zero : ℕ → σ) (sharedState : ℕ → τ) (ptr : ℕ) :
    ((boot config serviceChain code zero sharedState).ledger.cards ptr).Blank := by
  have hcard : ((boot config serviceChain code zero sharedState).ledger.cards ptr) =
      { FlowActor.blank.card with
        actorId := if ptr = deadendFlowActor then flowActorIdStart else invalidFlowActorId } := by
    simp only [ledger, boot, update_apply]
    split <;> rfl
  rw [hcard]
  refine ⟨rfl, rfl, rfl, rfl, ?_⟩
  intro kind
  cases kind <;> exact fun harmed ↦ harmed rfl

theorem sound_boot (zero : ℕ → σ)
    (sharedState : ℕ → τ) : (boot config serviceChain code zero sharedState).ledger.Sound := by
  have hblank := blank_boot config serviceChain code zero sharedState
  refine ⟨rfl, ⟨?_, ?_⟩, ?_, ?_, ?_, ?_, ?_, ?_, ?_, ?_, ?_, ?_⟩
  · change initialAllocator.contents.Nodup
    rw [contents_initialAllocator]
    exact List.nodup_range'
  · intro ptr hptr
    change ptr ∈ initialAllocator.contents at hptr
    rw [contents_initialAllocator, List.mem_range'_1] at hptr
    change ptr < numFlowActors
    omega
  · rw [Ledger.Live, RingBuffer.mem_outstanding]
    change deadendFlowActor < numFlowActors ∧ deadendFlowActor ∉ initialAllocator.contents
    rw [contents_initialAllocator, List.mem_range'_1]
    exact ⟨by decide, by decide⟩
  · exact hblank deadendFlowActor
  · intro node hnode
    exact ⟨hnode, hnode⟩
  · intro ptr kind harmed
    exact absurd harmed ((hblank ptr).timers kind)
  · intro ptr harmed
    exact absurd harmed ((hblank ptr).timers .idle)
  · intro ptr hmem hne
    exact absurd (live_boot hmem) hne
  · intro key ptr hentry
    exact absurd hentry (by simp [ledger, boot])
  · intro key ptr hentry
    exact absurd hentry (by simp [ledger, boot])
  · intro id ptr hentry
    exact absurd hentry (by simp [ledger, boot])
  · intro id ptr hentry
    exact absurd hentry (by simp [ledger, boot])

variable {guard : Runtime σ τ → Input σ → Prop}

/-- In every run the pool and the tables are sound. -/
theorem sound_of_reachable (hreach : (system σ τ).Reachable guard rt) : rt.ledger.Sound := by
  apply hreach.invariant
  · rintro rt ⟨config, serviceChain, code, zero, sharedState, rfl⟩
    exact sound_boot config serviceChain code zero sharedState
  · intro rt input rt' hsound _ hstep
    exact hsound.effect (step_effect hsound.blank input hstep)

/-- Properties of initial ledgers that every effect in a guarded run keeps. -/
theorem ledger_invariant {inv : Ledger → Prop} {rt : Runtime σ τ} (hreach : (system σ τ).Reachable guard rt)
    (hboot : ∀ config serviceChain code zero sharedState,
      inv (boot config serviceChain code zero sharedState : Runtime σ τ).ledger)
    (hstep : ∀ (rt : Runtime σ τ) input ledger', rt.ledger.Sound → inv rt.ledger → guard rt input →
      rt.ledger.Effect input ledger' → inv ledger') :
      inv rt.ledger := by
  have hboth : rt.ledger.Sound ∧ inv rt.ledger := by
    apply hreach.invariant
    · rintro rt ⟨config, serviceChain, code, zero, sharedState, rfl⟩
      exact ⟨sound_boot config serviceChain code zero sharedState,
        hboot config serviceChain code zero sharedState⟩
    · intro rt input rt' ⟨hsound, hinv⟩ hguard hs
      have heffect := step_effect hsound.blank input hs
      exact ⟨hsound.effect heffect, hstep rt input _ hsound hinv hguard heffect⟩
  exact hboth.2

end Runtime

end NfvActor.Actor
