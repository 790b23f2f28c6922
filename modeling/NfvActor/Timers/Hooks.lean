import Mathlib.Tactic
import NfvActor.Actor.ActiveFlows
import NfvActor.Timers.Calls

/-!
# Actors that wait for an answer are on no list

`coordinator_mp` takes an actor off its list and arms a request timer of it. The assertion of `add_timer` holds
because an actor that waits for an answer is on no list. This needs that responses name a request, and that a
flow state is delivered only to an actor that is on no list and waits for nothing.
-/

namespace NfvActor.Actor

open NfvActor.Foundation
open NfvActor.Actor.Runtime (deadendFlowActor)
open NfvActor.Reliable (Packet)
open Function

namespace Ledger

variable {σ : Type} {ledger ledger' : Ledger} {ptr : ℕ}

/-- The actor is on no list. -/
def Unhooked (ledger : Ledger) (ptr : ℕ) : Prop := ledger.links.next (.actor ptr) = .actor ptr

instance (ledger : Ledger) (ptr : ℕ) : Decidable (ledger.Unhooked ptr) :=
  inferInstanceAs (Decidable (_ = _))

/-- An actor that waits for an answer is live and on no list. -/
structure Resting (ledger : Ledger) : Prop where
  answered : ledger.links.Answered ListNode.steady
  free : ∀ ptr, ¬ledger.Live ptr → ledger.Unhooked ptr
  live : ∀ ptr kind, ((ledger.cards ptr).timer kind).Armed → ledger.Live ptr
  waiting : ∀ ptr kind, kind ≠ .idle → ((ledger.cards ptr).timer kind).Armed → ledger.Unhooked ptr
  apart : ∀ ptr, (ledger.cards ptr).migrationTimer.Armed → ¬(ledger.cards ptr).replicationTimer.Armed

/-- What the step delivers is meant for its receiver. -/
structure Meant (ledger : Ledger) (input : Input σ) : Prop where
  arrives : ∀ ptr, ledger.ArrivesAt ptr input → ledger.Unhooked ptr ∧
    ∀ kind, kind ≠ .idle → ¬((ledger.cards ptr).timer kind).Armed
  named : RepliesNamed input

namespace Resting

theorem alter (h : ledger.Resting) (halters : ledger.Alters ledger' ptr)
    (hanswered : ledger'.links.Answered ListNode.steady)
    (hothers : ∀ other, other ≠ ptr → ledger.Unhooked other → ledger'.Unhooked other)
    (hfree : ¬ledger'.Live ptr → ledger'.Unhooked ptr)
    (hlive : ∀ kind, ((ledger'.cards ptr).timer kind).Armed → ledger'.Live ptr)
    (hwaiting : ∀ kind, kind ≠ .idle → ((ledger'.cards ptr).timer kind).Armed → ledger'.Unhooked ptr)
    (hapart : (ledger'.cards ptr).migrationTimer.Armed → ¬(ledger'.cards ptr).replicationTimer.Armed) :
    ledger'.Resting where
  answered := hanswered
  free := by
    intro other hnot
    by_cases heq : other = ptr
    · subst heq
      exact hfree hnot
    · exact hothers other heq (h.free other fun hlive ↦ hnot ((halters.live other heq).2 hlive))
  live := by
    intro other kind harmed
    by_cases heq : other = ptr
    · subst heq
      exact hlive kind harmed
    · rw [halters.cards other heq] at harmed
      exact (halters.live other heq).2 (h.live other kind harmed)
  waiting := by
    intro other kind hkind harmed
    by_cases heq : other = ptr
    · subst heq
      exact hwaiting kind hkind harmed
    · rw [halters.cards other heq] at harmed
      exact hothers other heq (h.waiting other kind hkind harmed)
  apart := by
    intro other
    by_cases heq : other = ptr
    · subst heq
      exact hapart
    · rw [halters.cards other heq]
      exact h.apart other

/-- The lists and the pool are left alone. -/
theorem stay (h : ledger.Resting) (htouch : ledger.Touches ledger' ptr) (hlinks : ledger'.links = ledger.links)
    (hlive : ∀ kind, ((ledger'.cards ptr).timer kind).Armed → ledger.Live ptr)
    (hwaiting : ∀ kind, kind ≠ .idle → ((ledger'.cards ptr).timer kind).Armed → ledger.Unhooked ptr)
    (hapart : (ledger'.cards ptr).migrationTimer.Armed → ¬(ledger'.cards ptr).replicationTimer.Armed) :
    ledger'.Resting := by
  have hsame : ∀ other, ledger'.Live other ↔ ledger.Live other := by
    intro other
    rw [Live, Live, htouch.allocator]
  have hunhooked : ∀ other, ledger.Unhooked other → ledger'.Unhooked other := by
    intro other hself
    rw [Unhooked, hlinks]
    exact hself
  refine h.alter (.of_touches htouch) (by rw [hlinks]; exact h.answered) (fun other _ ↦ hunhooked other)
    (fun hnot ↦ hunhooked ptr (h.free ptr fun hbefore ↦ hnot ((hsame ptr).2 hbefore))) ?_ ?_ hapart
  · exact fun kind harmed ↦ (hsame ptr).2 (hlive kind harmed)
  · exact fun kind hkind harmed ↦ hunhooked ptr (hwaiting kind hkind harmed)

theorem of_same (h : ledger.Resting) (hallocator : ledger'.allocator = ledger.allocator)
    (hcards : ledger'.cards = ledger.cards) (hlinks : ledger'.links = ledger.links) : ledger'.Resting := by
  refine ⟨?_, ?_, ?_, ?_, ?_⟩
  · rw [hlinks]
    exact h.answered
  · intro ptr hnot
    rw [Live, hallocator] at hnot
    rw [Unhooked, hlinks]
    exact h.free ptr hnot
  · intro ptr kind harmed
    rw [hcards] at harmed
    rw [Live, hallocator]
    exact h.live ptr kind harmed
  · intro ptr kind hkind harmed
    rw [hcards] at harmed
    rw [Unhooked, hlinks]
    exact h.waiting ptr kind hkind harmed
  · rw [hcards]
    exact h.apart

theorem unhooked_addTail (h : ledger.Resting) (head : ListNode) {other : ℕ} (hne : other ≠ ptr)
    (hhead : head ≠ .actor other) (hself : ledger.Unhooked other) :
    (ledger.links.addTail head (.actor ptr)).next (.actor other) = .actor other :=
  h.answered.next_addTail_of_self (ListNode.actor_steady other) hself (by simpa using hne) hhead.symm

theorem unhooked_del (h : ledger.Resting) {other : ℕ} (hne : other ≠ ptr) (hself : ledger.Unhooked other) :
    (ledger.links.del (.actor ptr)).next (.actor other) = .actor other :=
  h.answered.next_del_of_self (ListNode.actor_steady other) hself (by simpa using hne)

/-- The first item of a list is not waiting for an answer. -/
theorem disarmed_of_peekFirst (h : ledger.Resting) {head : ListNode} (hhead : head ≠ .actor ptr)
    (hpeek : ledger.links.peekFirst head = some (.actor ptr)) :
    ledger.Live ptr ∧ ∀ kind, kind ≠ .idle → ¬((ledger.cards ptr).timer kind).Armed := by
  have hhooked : ¬ledger.Unhooked ptr := by
    intro hself
    have hprev := h.answered.prev_of_next (ListNode.actor_steady ptr) (Links.next_of_peekFirst hpeek)
    rw [(h.answered.next_self_iff (ListNode.actor_steady ptr)).1 hself] at hprev
    exact hhead hprev.symm
  exact ⟨by_contra fun hnot ↦ hhooked (h.free ptr hnot),
    fun kind hkind harmed ↦ hhooked (h.waiting ptr kind hkind harmed)⟩

/-! ## Effects -/

variable (h : ledger.Resting)

include h

theorem enroll (hsound : ledger.Sound) {ring : RingBuffer ℕ} {head : ListNode} (key : FlowKey)
    (state : FlowState) (replication : ReplicationState) (hpop : ledger.allocator.pop = some (ptr, ring))
    (hhead : ∀ other, head ≠ .actor other) : (ledger.enroll ptr ring head key state replication).Resting := by
  have hnot : ¬ledger.Live ptr := (hsound.pool.pop hpop).2.1
  have hlive : (ledger.enroll ptr ring head key state replication).Live ptr :=
    (hsound.live_enroll hpop ptr).2 (.inl rfl)
  have hdisarmed : ∀ kind, kind ≠ .idle →
      ¬(((ledger.enroll ptr ring head key state replication).cards ptr).timer kind).Armed := by
    intro kind hkind harmed
    rw [cards_enroll, update_self] at harmed
    refine hnot (h.live ptr kind ?_)
    cases kind with
    | idle => exact absurd rfl hkind
    | migration => exact harmed
    | replication => exact harmed
  refine h.alter (.enroll hsound head key state replication hpop)
    (h.answered.addTail (ListNode.actor_steady ptr) (h.free ptr hnot) (hhead ptr))
    (fun other hne ↦ h.unhooked_addTail head hne (hhead other)) (fun hdead ↦ absurd hlive hdead)
    (fun _ _ ↦ hlive) (fun kind hkind harmed ↦ absurd harmed (hdisarmed kind hkind))
    fun harmed ↦ absurd harmed (hdisarmed .migration (by decide))

/-- An actor is removed; it may have changed before. -/
theorem remove {mid : Ledger} (hleaves : ledger.Leaves mid ptr) (hlinks : mid.links = ledger.links) :
    (mid.remove ptr).Resting := by
  have hequation : (mid.remove ptr).links = ledger.links.del (.actor ptr) := by
    rw [remove_eq _ hleaves.ne_deadend, hlinks]
  have hdisarmed : ∀ kind, ¬(((mid.remove ptr).cards ptr).timer kind).Armed := by
    rw [hleaves.card]
    exact not_armed_removedCard _
  refine h.alter hleaves.remove ?_ ?_ ?_ (fun kind harmed ↦ absurd harmed (hdisarmed kind))
    (fun kind _ harmed ↦ absurd harmed (hdisarmed kind)) fun harmed ↦ absurd harmed (hdisarmed .migration)
  · rw [hequation]
    exact h.answered.del (ListNode.actor_steady ptr)
  · intro other hne hself
    rw [Unhooked, hequation]
    exact h.unhooked_del hne hself
  · intro _
    rw [Unhooked, hequation]
    exact (Links.del_self _ _).1

theorem enter (htouch : ledger.Touches ledger' ptr)
    (hlinks : ledger'.links = ledger.links.addTail .activeFlows (.actor ptr)) (hlive : ledger.Live ptr)
    (hself : ledger.Unhooked ptr) (hdisarmed : ∀ kind, kind ≠ .idle → ¬((ledger'.cards ptr).timer kind).Armed) :
    ledger'.Resting := by
  have hlive' : ledger'.Live ptr := by
    rw [Live, htouch.allocator]
    exact hlive
  refine h.alter (.of_touches htouch) ?_ ?_ (fun hdead ↦ absurd hlive' hdead) (fun _ _ ↦ hlive')
    (fun kind hkind harmed ↦ absurd harmed (hdisarmed kind hkind))
    fun harmed ↦ absurd harmed (hdisarmed .migration (by decide))
  · rw [hlinks]
    exact h.answered.addTail (ListNode.actor_steady ptr) hself (by simp)
  · intro other hne hother
    rw [Unhooked, hlinks]
    exact h.unhooked_addTail .activeFlows hne (by simp) hother

theorem take (htouch : ledger.Touches ledger' ptr) (hlinks : ledger'.links = ledger.links.del (.actor ptr))
    (hlive : ledger.Live ptr)
    (hapart : (ledger'.cards ptr).migrationTimer.Armed → ¬(ledger'.cards ptr).replicationTimer.Armed) :
    ledger'.Resting := by
  have hlive' : ledger'.Live ptr := by
    rw [Live, htouch.allocator]
    exact hlive
  have hself : ledger'.Unhooked ptr := by
    rw [Unhooked, hlinks]
    exact (Links.del_self _ _).1
  refine h.alter (.of_touches htouch) ?_ ?_ (fun _ ↦ hself) (fun _ _ ↦ hlive') (fun _ _ _ ↦ hself) hapart
  · rw [hlinks]
    exact h.answered.del (ListNode.actor_steady ptr)
  · intro other hne hother
    rw [Unhooked, hlinks]
    exact h.unhooked_del hne hother

theorem storage (runtimeId : UInt32) :
    (ledger.addStorage runtimeId).Resting ∧ (ledger.removeStorage runtimeId).Resting := by
  have hinit : ∀ head, (ledger.links.itemInit (.replicaFlows head)).Answered ListNode.steady ∧
      ∀ other, ledger.Unhooked other →
        (ledger.links.itemInit (.replicaFlows head)).next (.actor other) = .actor other := by
    intro head
    refine ⟨h.answered.itemInit fun hsteady ↦ hsteady head rfl, fun other hself ↦ ?_⟩
    rw [Unhooked] at hself
    simpa [Links.itemInit] using hself
  unfold addStorage removeStorage
  cases ledger.replicaFlowLists runtimeId with
  | some head =>
    refine ⟨⟨(hinit head).1, fun ptr hnot ↦ (hinit head).2 ptr (h.free ptr hnot), h.live,
      fun ptr kind hkind harmed ↦ (hinit head).2 ptr (h.waiting ptr kind hkind harmed), h.apart⟩, ?_⟩
    exact h.of_same rfl rfl rfl
  | none =>
    have hfresh := hinit ledger.nextHead
    exact ⟨⟨hfresh.1, fun ptr hnot ↦ hfresh.2 ptr (h.free ptr hnot), h.live,
      fun ptr kind hkind harmed ↦ hfresh.2 ptr (h.waiting ptr kind hkind harmed), h.apart⟩, h⟩

/-- The timers for requests are as before, or off. -/
theorem keep (htouch : ledger.Touches ledger' ptr) (hlinks : ledger'.links = ledger.links)
    (hidle : (ledger'.cards ptr).idleTimer.Armed → ledger.Live ptr)
    (hmigration : (ledger'.cards ptr).migrationTimer = (ledger.cards ptr).migrationTimer)
    (hreplication : (ledger'.cards ptr).replicationTimer = (ledger.cards ptr).replicationTimer) :
    ledger'.Resting := by
  have htimer : ∀ kind, kind ≠ .idle → (ledger'.cards ptr).timer kind = (ledger.cards ptr).timer kind := by
    intro kind hkind
    cases kind with
    | idle => exact absurd rfl hkind
    | migration => exact hmigration
    | replication => exact hreplication
  refine h.stay htouch hlinks ?_ ?_ ?_
  · intro kind harmed
    by_cases hkind : kind = .idle
    · subst hkind
      exact hidle harmed
    · rw [htimer kind hkind] at harmed
      exact h.live ptr kind harmed
  · intro kind hkind harmed
    rw [htimer kind hkind] at harmed
    exact h.waiting ptr kind hkind harmed
  · rw [hmigration, hreplication]
    exact h.apart ptr

theorem request (state : FlowState) (timer : ActorTimer) (harmed : (ledger.cards ptr).migrationTimer.Armed) :
    (ledger.request ptr state timer).Resting := by
  have hcard := cards_request ledger ptr state timer
  have hlive := h.live ptr .migration harmed
  refine h.stay (.request ledger ptr state timer) rfl (fun _ _ ↦ hlive)
    (fun _ _ _ ↦ h.waiting ptr .migration (by decide) harmed) fun _ ↦ ?_
  rw [hcard]
  exact h.apart ptr harmed

/-- Kept by every step whose deliveries are meant for their receivers. -/
theorem effect (hsound : ledger.Sound) {input : Input σ} (hmeant : ledger.Meant input)
    (heffect : ledger.Effect input ledger') : ledger'.Resting := by
  cases heffect with
  | unchanged => exact h
  | dropReplica _ _ ptr =>
    refine h.keep (.modifyCard rfl rfl rfl rfl) rfl ?_ ?_ ?_ <;>
      rw [Ledger.dropReplica, modifyCard, cards_setCard]
    exact h.live ptr .idle
  | newFlow _ _ _ _ _ _ hpop => exact h.enroll hsound _ _ _ hpop (by simp)
  | newTarget _ _ _ _ _ _ _ _ _ _ hpop | newReplica _ _ _ _ _ _ _ _ _ _ _ _ _ _ hpop =>
    exact h.enroll hsound _ _ _ hpop (by simp)
  | bindDeadend => exact h.of_same rfl rfl rfl
  | idleAgain _ _ _ harmed htype =>
    refine h.keep (.modifyCard rfl rfl rfl rfl) rfl ?_ ?_ ?_ <;> rw [modifyCard, cards_setCard]
    exact fun _ ↦ hsound.live_of_checkIdle harmed htype
  | expire _ _ _ harmed htype => exact h.remove (.expire hsound harmed htype) rfl
  | skipMigration => exact h.of_same rfl rfl rfl
  | refuse _ ptr _ hpeek =>
    obtain ⟨hlive, hdisarmed⟩ := h.disarmed_of_peekFirst (by simp) hpeek
    have htaken : (ledger.depart ptr).Resting := h.take (.depart ledger ptr) rfl hlive (h.apart ptr)
    have hself : (ledger.depart ptr).Unhooked ptr := (Links.del_self _ _).1
    refine htaken.enter (.giveUp _ ptr) rfl hlive hself ?_
    intro kind hkind
    rw [cards_giveUp]
    cases kind with
    | idle => exact absurd rfl hkind
    | migration => exact hdisarmed .migration hkind
    | replication => exact hdisarmed .replication hkind
  | depart _ ptr _ _ hpeek =>
    obtain ⟨hlive, hdisarmed⟩ := h.disarmed_of_peekFirst (by simp) hpeek
    refine h.take ((Touches.depart ledger ptr).trans (.request _ ptr _ _)) rfl hlive fun _ ↦ ?_
    rw [cards_request]
    exact hdisarmed .replication (by decide)
  | abandon _ ptr hanswers =>
    have harmed := armed_of_answers hsound hmeant.named hanswers
    refine h.enter ((Touches.disarm ledger ptr .migration).trans (.giveUp _ ptr)) rfl
      (h.live ptr .migration harmed) (h.waiting ptr .migration (by decide) harmed) ?_
    intro kind hkind
    rw [cards_giveUp, disarm, modifyCard, cards_setCard]
    cases kind with
    | idle => exact absurd rfl hkind
    | migration => exact fun hon ↦ hon rfl
    | replication => exact h.apart ptr harmed
  | request _ _ state timer hanswers =>
    exact h.request state timer (armed_of_answers hsound hmeant.named hanswers)
  | arrive _ _ _ ptr states hdelivers hbody =>
    obtain ⟨hself, hdisarmed⟩ := hmeant.arrives ptr ⟨hdelivers, states, hbody⟩
    refine h.enter (.arrive ledger ptr) rfl (hsound.id_live _ ptr hdelivers.2.1) hself ?_
    intro kind hkind
    have hcard : (ledger.arrive ptr).cards ptr =
        { ledger.cards ptr with currentState := .normalProcessing } := cards_setCard ledger ptr _
    rw [hcard]
    cases kind with
    | idle => exact absurd rfl hkind
    | migration => exact hdisarmed .migration hkind
    | replication => exact hdisarmed .replication hkind
  | complete _ _ _ _ hdelivers => exact h.remove (.complete hsound hdelivers) rfl
  | startRecovery _ ptr _ requestMsgId hpeek =>
    obtain ⟨hlive, hdisarmed⟩ := h.disarmed_of_peekFirst (by simp) hpeek
    have hunlink : ledger.Touches (ledger.unlink ptr) ptr := .of_cards_eq rfl rfl rfl rfl rfl rfl rfl
    refine h.take ((hunlink.trans (.awaitRecovery _ ptr requestMsgId)).trans
      (.of_cards_eq rfl rfl rfl rfl rfl rfl rfl)) rfl hlive fun harmed ↦ ?_
    refine absurd ?_ (hdisarmed .migration (by decide))
    rw [setRecovery, cards_awaitRecovery] at harmed
    exact harmed
  | recoveryDone => exact h.of_same rfl rfl rfl
  | retryRecovery _ ptr requestMsgId hanswers =>
    have harmed := armed_of_answers hsound hmeant.named hanswers
    refine h.stay (.awaitRecovery ledger ptr requestMsgId) rfl (fun _ _ ↦ h.live ptr .replication harmed)
      (fun _ _ _ ↦ h.waiting ptr .replication (by decide) harmed) fun hmigration ↦ ?_
    rw [cards_awaitRecovery] at hmigration
    exact absurd harmed (h.apart ptr hmigration)
  | endRecovery _ ptr succeeded hanswers =>
    have harmed := armed_of_answers hsound hmeant.named hanswers
    refine h.enter (.endRecovery ledger ptr succeeded) rfl (h.live ptr .replication harmed)
      (h.waiting ptr .replication (by decide) harmed) ?_
    intro kind hkind
    rw [cards_endRecovery]
    cases kind with
    | idle => exact absurd rfl hkind
    | migration => exact fun hmigration ↦ h.apart ptr hmigration harmed
    | replication => exact fun hon ↦ hon rfl
  | migrateTo => exact h.of_same rfl rfl rfl
  | recover => exact h.of_same rfl rfl rfl
  | addStorage runtimeId => exact (h.storage runtimeId).1
  | removeStorage runtimeId => exact (h.storage runtimeId).2

end Resting

end Ledger

namespace TimerTable

theorem isSome_calls_add {table : TimerTable} {ptr : ℕ} {kind : TimerKind} (list : TimerList)
    (requestMsgId : UInt32) (msgType : TimerMessage) (h : ¬(table ptr kind).Armed) :
    (table.calls [.add ptr kind list requestMsgId msgType]).isSome := by
  rw [calls, call, if_pos (not_not.1 h)]
  rfl

/-- A timer that has just been invalidated may be armed. -/
theorem isSome_calls_again (table : TimerTable) (ptr : ℕ) (kind : TimerKind) (list : TimerList)
    (requestMsgId : UInt32) (msgType : TimerMessage) :
    (table.calls [.invalidate ptr kind, .add ptr kind list requestMsgId msgType]).isSome := by
  have hoff : ¬(table.set ptr kind (table ptr kind).invalidate ptr kind).Armed := by
    simp [set, ActorTimer.Armed, ActorTimer.invalidate]
  exact isSome_calls_add list requestMsgId msgType hoff

end TimerTable

namespace Runtime

variable {σ τ : Type} {rt : Runtime σ τ}

theorem isSome_removeCalls (table : TimerTable) (ptr : ℕ) : (table.calls (removeCalls ptr)).isSome := by
  unfold removeCalls
  split <;> rfl

theorem isSome_initCalls (hsound : rt.ledger.Sound) : (rt.timers.calls rt.initCalls).isSome := by
  unfold initCalls
  split
  · next ptr ring hpop =>
    refine TimerTable.isSome_calls_add _ _ _ fun harmed ↦ ?_
    exact (hsound.pool.pop hpop).2.1 (hsound.idle_live ptr harmed)
  · rfl

theorem isSome_answerCalls (env : Environment σ) (ptr : ℕ) (body : MessageBody σ) :
    (rt.timers.calls (rt.answerCalls env ptr body)).isSome := by
  cases body with
  | startMigrationResponse => exact TimerTable.isSome_calls_again _ _ _ _ _ _
  | changeVswitchRouteResponse =>
    rw [answerCalls]
    split
    · rfl
    · split <;> exact TimerTable.isSome_calls_again _ _ _ _ _ _
  | migrateFlowStateResponse => exact isSome_removeCalls _ ptr
  | _ => rfl

theorem isSome_timeoutCalls (env : Environment σ) (ptr : ℕ) (msgType : TimerMessage) :
    (rt.timers.calls (rt.timeoutCalls env ptr msgType)).isSome := by
  cases msgType with
  | checkIdle =>
    rw [timeoutCalls]
    split
    · exact isSome_removeCalls _ ptr
    · exact TimerTable.isSome_calls_again _ _ _ _ _ _
  | startMigrationTimeout => rfl
  | changeVswitchRouteTimeout | replicaRecoverTimeout =>
    rw [timeoutCalls]
    split
    · exact TimerTable.isSome_calls_again _ _ _ _ _ _
    · rfl
  | migrateFlowStateTimeout => exact TimerTable.isSome_calls_again _ _ _ _ _ _

theorem peekFirst_of_peekHead {head : ListNode} {ptr : ℕ} (h : (rt.peekHead head).bind id = some ptr) :
    rt.links.peekFirst head = some (.actor ptr) := by
  obtain ⟨first, hfirst, heq⟩ := Option.bind_eq_some_iff.1 h
  rw [id] at heq
  rw [heq] at hfirst
  exact peekHead_spec hfirst

/-- Whatever the step is, `add_timer` finds the timer disarmed. -/
theorem isSome_timerCalls (hsound : rt.ledger.Sound) (hresting : rt.ledger.Resting) (input : Input σ) :
    (rt.timers.calls (rt.timerCalls input)).isSome := by
  cases input with
  | packet =>
    rw [timerCalls]
    split
    · rfl
    · exact isSome_initCalls hsound
  | message env _ message =>
    rw [timerCalls]
    split
    · unfold coordinatorCalls
      split
      · exact isSome_initCalls hsound
      · split
        · rfl
        · exact isSome_initCalls hsound
      · rfl
    · cases rt.actoridHtable message.recvActorId with
      | none => rfl
      | some ptr =>
        rw [Option.map_some, Option.getD_some, flowActorCalls]
        split
        · split
          · exact isSome_answerCalls env ptr message.body
          · rfl
        · rfl
  | fire env ptr => exact isSome_timeoutCalls env ptr _
  | migrationIteration =>
    rw [timerCalls]
    split
    · next ptr hpick =>
      split
      · rfl
      · refine TimerTable.isSome_calls_add _ _ _ ?_
        unfold migrationPick at hpick
        split at hpick
        · cases hpick
        · exact (hresting.disarmed_of_peekFirst (by simp) (peekFirst_of_peekHead hpick)).2 .migration
            (by decide)
    · rfl
  | recoveryIteration =>
    rw [timerCalls]
    split
    · next ptr hpick =>
      refine TimerTable.isSome_calls_add _ _ _ ?_
      unfold recoveryPick at hpick
      split at hpick
      · cases hpick
      · obtain ⟨head, -, hpick⟩ := Option.bind_eq_some_iff.1 hpick
        exact (hresting.disarmed_of_peekFirst (by simp) (peekFirst_of_peekHead hpick)).2 .replication
          (by decide)
    · rfl
  | _ => rfl

theorem resting_boot (config : RuntimeConfig) (serviceChain : List ℕ) (code : ℕ → NetworkFunction σ τ)
    (zero : ℕ → σ) (sharedState : ℕ → τ) :
    (boot config serviceChain code zero sharedState).ledger.Resting := by
  have hblank := blank_boot config serviceChain code zero sharedState
  exact ⟨.detached _, fun _ _ ↦ rfl, fun ptr kind harmed ↦ absurd harmed ((hblank ptr).timers kind),
    fun _ _ _ _ ↦ rfl, fun ptr harmed ↦ absurd harmed ((hblank ptr).timers .migration)⟩

end Runtime

end NfvActor.Actor
