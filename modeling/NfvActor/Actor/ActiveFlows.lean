import Mathlib.Tactic
import NfvActor.Foundation.TrustedLinks
import NfvActor.Actor.Awaiting
import NfvActor.Actor.FlowTables

/-!
# The list of active flows

`active_flows_rrlist_` is meant to hold the live actors that process packets normally and are not replicas.
Handlers link and unlink an actor beside its change of state, but `create_migration_target_actor_t` links the
target before the flow has arrived, and `migrate_flow_state_t` links it once more.
-/

namespace NfvActor.Actor

open NfvActor.Foundation
open NfvActor.Actor.Runtime (deadendFlowActor)
open NfvActor.Reliable (Packet)
open Function

/-- The nodes that `add_storage` does not initialise again. -/
def ListNode.steady : Set ListNode := { node | ∀ head, node ≠ .replicaFlows head }

theorem ListNode.actor_steady (ptr : ℕ) : ListNode.actor ptr ∈ ListNode.steady := by
  intro head
  simp

/-- The active list holds the given actors; other linked actors are in a replica list. -/
structure ActiveRing (links : Links ListNode) (actives : List ℕ) (standby : Set ℕ) : Prop where
  answered : links.Answered ListNode.steady
  ring : links.IsRing .activeFlows (actives.map .actor)
  linked : ∀ ptr, links.next (.actor ptr) ≠ .actor ptr → ptr ∈ actives ∨ ptr ∈ standby

namespace ActiveRing

variable {links : Links ListNode} {actives : List ℕ} {standby standby' : Set ℕ} {ptr head : ℕ}

theorem actor_mem_iff : ListNode.actor ptr ∈ ListNode.activeFlows :: actives.map .actor ↔ ptr ∈ actives := by
  simp

theorem steady_of_mem : ∀ node ∈ ListNode.activeFlows :: actives.map .actor, node ∈ ListNode.steady := by
  intro node hnode head
  rcases List.mem_cons.1 hnode with rfl | hmem
  · simp
  · obtain ⟨ptr, -, rfl⟩ := List.mem_map.1 hmem
    simp

theorem detached : ActiveRing Links.detached [] standby where
  answered := .detached _
  ring := ⟨List.nodup_singleton _, rfl, rfl⟩
  linked := fun _ hne ↦ absurd rfl hne

section

variable (h : ActiveRing links actives standby)

include h

theorem mono (hsub : standby ⊆ standby') : ActiveRing links actives standby' where
  answered := h.answered
  ring := h.ring
  linked := fun ptr hne ↦ (h.linked ptr hne).imp_right fun hmem ↦ hsub hmem

theorem nodup : actives.Nodup := (List.nodup_cons.1 h.ring.nodup).2.of_map _

theorem unlinked (hactive : ptr ∉ actives) (hstandby : ptr ∉ standby) :
    links.next (.actor ptr) = .actor ptr := by
  by_contra hne
  exact (h.linked ptr hne).elim hactive hstandby

theorem mem_of_peekFirst (hpeek : links.peekFirst .activeFlows = some (.actor ptr)) : ptr ∈ actives := by
  rw [Links.peekFirst_eq h.ring] at hpeek
  have hmem := List.mem_of_head? hpeek
  simpa using hmem

theorem standby_of_peekFirst (hpeek : links.peekFirst (.replicaFlows head) = some (.actor ptr)) :
    ptr ∉ actives ∧ ptr ∈ standby := by
  have hprev := h.answered.prev_of_next (ListNode.actor_steady ptr) (Links.next_of_peekFirst hpeek)
  have hactive : ptr ∉ actives := by
    intro hmem
    have hring := h.ring.prev_mem_ring (actor_mem_iff.2 hmem)
    rw [hprev] at hring
    simp at hring
  refine ⟨hactive, (h.linked ptr ?_).resolve_left hactive⟩
  intro hself
  rw [(h.answered.next_self_iff (ListNode.actor_steady ptr)).1 hself] at hprev
  cases hprev

theorem enter (hactive : ptr ∉ actives) (hself : links.next (.actor ptr) = .actor ptr) :
    ActiveRing (links.addTail .activeFlows (.actor ptr)) (actives ++ [ptr]) standby where
  answered := h.answered.addTail (ListNode.actor_steady ptr) hself (by simp)
  ring := by
    rw [List.map_append]
    exact h.ring.addTail (actor_mem_iff.not.2 hactive)
  linked := by
    intro other hne
    by_cases heq : other = ptr
    · exact .inl (by simp [heq])
    · refine (h.linked other ?_).imp_left fun hmem ↦ List.mem_append_left _ hmem
      intro hnext
      exact hne (h.answered.next_addTail_of_self (ListNode.actor_steady other) hnext (by simpa using heq)
        (by simp))

theorem stand (hactive : ptr ∉ actives) (hself : links.next (.actor ptr) = .actor ptr) :
    ActiveRing (links.addTail (.replicaFlows head) (.actor ptr)) actives (insert ptr standby) where
  answered := h.answered.addTail (ListNode.actor_steady ptr) hself (by simp)
  ring := h.ring.addTail_other h.answered steady_of_mem (by simp) (actor_mem_iff.not.2 hactive)
  linked := by
    intro other hne
    by_cases heq : other = ptr
    · exact .inr (.inl heq)
    · refine (h.linked other ?_).imp_right .inr
      intro hnext
      exact hne (h.answered.next_addTail_of_self (ListNode.actor_steady other) hnext (by simpa using heq)
        (by simp))

/-- Deleting an actor from whatever list it is in. -/
theorem leave (ptr : ℕ) : ActiveRing (links.del (.actor ptr)) (actives.erase ptr) (standby \ {ptr}) where
  answered := h.answered.del (ListNode.actor_steady ptr)
  ring := by
    by_cases hmem : ptr ∈ actives
    · obtain ⟨before, after, hbefore, heq, herase⟩ := List.exists_erase_eq hmem
      have hring := h.ring
      rw [heq, List.map_append, List.map_cons] at hring
      rw [herase, List.map_append]
      exact hring.del
    · rw [List.erase_of_not_mem hmem]
      exact h.ring.del_other h.answered steady_of_mem (actor_mem_iff.not.2 hmem)
  linked := by
    intro other hne
    have heq : other ≠ ptr := by
      rintro rfl
      exact hne (Links.del_self links _).1
    have hnext : links.next (.actor other) ≠ .actor other := by
      intro hself
      exact hne (h.answered.next_del_of_self (ListNode.actor_steady other) hself (by simpa using heq))
    exact (h.linked other hnext).imp (List.mem_erase_of_ne heq).2 fun hmem ↦ ⟨hmem, heq⟩

theorem storage (head : ℕ) : ActiveRing (links.itemInit (.replicaFlows head)) actives standby where
  answered := h.answered.itemInit fun hsteady ↦ hsteady head rfl
  ring := h.ring.itemInit_other (by simp)
  linked := by
    intro other hne
    apply h.linked other
    intro hself
    exact hne (by simp [Links.itemInit, hself])

end

end ActiveRing

/-! ## The list and the states of the actors -/

namespace Ledger

variable {σ : Type}

/-- A live actor that processes packets normally and is not a replica. -/
def Active (ledger : Ledger) (ptr : ℕ) : Prop :=
  ledger.Live ptr ∧ (ledger.cards ptr).currentState = .normalProcessing ∧
    (ledger.cards ptr).replicationState ≠ .isReplica

/-- A live actor that holds a replica. -/
def Replica (ledger : Ledger) (ptr : ℕ) : Prop :=
  ledger.Live ptr ∧ (ledger.cards ptr).currentState = .normalProcessing ∧
    (ledger.cards ptr).replicationState = .isReplica

/-- A replica that is not being recovered. -/
def Standby (ledger : Ledger) (ptr : ℕ) : Prop :=
  ledger.Replica ptr ∧ ¬(ledger.cards ptr).replicationTimer.Armed

/-- The active list holds exactly the active actors, and nothing linked was linked again. -/
structure ActivesListed (ledger : Ledger) : Prop where
  listed : ∃ actives, ActiveRing ledger.links actives { ptr | ledger.Standby ptr } ∧
    ∀ ptr, ptr ∈ actives ↔ ledger.Active ptr
  relinked : ledger.relinked = false
  recovering : ∀ ptr, (ledger.cards ptr).replicationTimer.Armed → ledger.Replica ptr
  primary : ∀ ptr, ledger.Live ptr → (ledger.cards ptr).currentState.migrating = true →
    (ledger.cards ptr).replicationState ≠ .isReplica

/-- No migration comes in, and responses carry the id of a request. -/
structure NoneArrives (ledger : Ledger) (input : Input σ) : Prop where
  created : ∀ env senderRtid message inputHeader outputHeader key,
    input = .message env senderRtid message → message.recvActorId = coordinatorActorId →
    message.body = .createMigrationTargetActor inputHeader outputHeader key →
    ledger.allocator.pop = none
  arrives : ∀ ptr, ¬ledger.ArrivesAt ptr input
  named : RepliesNamed input

variable {ledger ledger' : Ledger} {ptr other : ℕ}

theorem Alters.active_iff (h : ledger.Alters ledger' ptr) (hne : other ≠ ptr) :
    ledger'.Active other ↔ ledger.Active other := by
  rw [Active, Active, h.live other hne, h.cards other hne]

theorem Alters.replica_iff (h : ledger.Alters ledger' ptr) (hne : other ≠ ptr) :
    ledger'.Replica other ↔ ledger.Replica other := by
  rw [Replica, Replica, h.live other hne, h.cards other hne]

theorem Alters.standby_iff (h : ledger.Alters ledger' ptr) (hne : other ≠ ptr) :
    ledger'.Standby other ↔ ledger.Standby other := by
  rw [Standby, Standby, h.replica_iff hne, h.cards other hne]

namespace ActivesListed

variable {ledger ledger' : Ledger} {ptr : ℕ}

/-- One actor and the list change, and agree afterwards. -/
theorem alter (h : ledger.ActivesListed) (halters : ledger.Alters ledger' ptr) (actives : List ℕ)
    (hring : ActiveRing ledger'.links actives { other | ledger'.Standby other })
    (hothers : ∀ other, other ≠ ptr → (other ∈ actives ↔ ledger.Active other))
    (hptr : ptr ∈ actives ↔ ledger'.Active ptr) (hrelinked : ledger'.relinked = false)
    (hrecovering : (ledger'.cards ptr).replicationTimer.Armed → ledger'.Replica ptr)
    (hprimary : ledger'.Live ptr → (ledger'.cards ptr).currentState.migrating = true →
      (ledger'.cards ptr).replicationState ≠ .isReplica) : ledger'.ActivesListed where
  listed := by
    refine ⟨actives, hring, fun other ↦ ?_⟩
    by_cases heq : other = ptr
    · rw [heq, hptr]
    · rw [hothers other heq, halters.active_iff heq]
  relinked := hrelinked
  recovering := by
    intro other harmed
    by_cases heq : other = ptr
    · rw [heq] at harmed ⊢
      exact hrecovering harmed
    · rw [halters.cards other heq] at harmed
      exact (halters.replica_iff heq).2 (h.recovering other harmed)
  primary := by
    intro other hlive hstate
    by_cases heq : other = ptr
    · rw [heq] at hlive hstate ⊢
      exact hprimary hlive hstate
    · rw [halters.cards other heq] at hstate ⊢
      exact h.primary other ((halters.live other heq).1 hlive) hstate

/-- Neither the list nor the standing of the actor changes. -/
theorem stay (h : ledger.ActivesListed) (halters : ledger.Alters ledger' ptr)
    (hlinks : ledger'.links = ledger.links) (hrelinked : ledger'.relinked = ledger.relinked)
    (hactive : ledger'.Active ptr ↔ ledger.Active ptr) (hstandby : ledger.Standby ptr → ledger'.Standby ptr)
    (hrecovering : (ledger'.cards ptr).replicationTimer.Armed → ledger'.Replica ptr)
    (hprimary : ledger'.Live ptr → (ledger'.cards ptr).currentState.migrating = true →
      (ledger'.cards ptr).replicationState ≠ .isReplica) : ledger'.ActivesListed := by
  obtain ⟨actives, hring, hmem⟩ := h.listed
  refine h.alter halters actives ?_ (fun other _ ↦ hmem other) ((hmem ptr).trans hactive.symm)
    (hrelinked.trans h.relinked) hrecovering hprimary
  rw [hlinks]
  refine hring.mono fun other hother ↦ ?_
  by_cases heq : other = ptr
  · rw [heq] at hother ⊢
    exact hstandby hother
  · exact (halters.standby_iff heq).2 hother

/-- Only fields that the invariant does not read change. -/
theorem of_same (h : ledger.ActivesListed) (hlinks : ledger'.links = ledger.links)
    (hrelinked : ledger'.relinked = ledger.relinked) (hcards : ledger'.cards = ledger.cards)
    (hallocator : ledger'.allocator = ledger.allocator) : ledger'.ActivesListed := by
  have hlive : ∀ ptr, ledger'.Live ptr ↔ ledger.Live ptr := by
    intro ptr
    rw [Live, Live, hallocator]
  have halters : ledger.Alters ledger' deadendFlowActor :=
    ⟨fun other _ ↦ by rw [hcards], fun other _ ↦ hlive other⟩
  refine h.stay halters hlinks hrelinked ?_ ?_ ?_ ?_
  · rw [Active, Active, hcards, hlive]
  · rw [Standby, Standby, Replica, Replica, hcards, hlive]
    exact id
  · rw [Replica, hcards, hlive]
    exact h.recovering deadendFlowActor
  · rw [hcards, hlive]
    exact h.primary deadendFlowActor

theorem not_replica_of_active (h : ledger.Active ptr) : ¬ledger.Replica ptr :=
  fun hreplica ↦ h.2.2 hreplica.2.2

theorem not_migrating_of_active (h : ledger.Active ptr) :
    (ledger.cards ptr).currentState.migrating = false := by
  rw [h.2.1]
  rfl

section

variable (h : ledger.ActivesListed)

include h

/-- An actor that is in no list joins the active list. -/
theorem enter (halters : ledger.Alters ledger' ptr)
    (hlinks : ledger'.links = ledger.links.addTail .activeFlows (.actor ptr))
    (hrelinked : ledger'.relinked = (ledger.relinked || ledger.links.next (.actor ptr) != .actor ptr))
    (hout : ¬ledger.Active ptr) (hstandby : ¬ledger.Standby ptr) (hactive : ledger'.Active ptr)
    (hoff : ¬(ledger'.cards ptr).replicationTimer.Armed) : ledger'.ActivesListed := by
  obtain ⟨actives, hring, hmem⟩ := h.listed
  have hnot : ptr ∉ actives := (hmem ptr).not.2 hout
  have hself := hring.unlinked hnot hstandby
  refine h.alter halters (actives ++ [ptr]) ?_ ?_ (iff_of_true (by simp) hactive) ?_
    (fun harmed ↦ absurd harmed hoff) ?_
  · rw [hlinks]
    refine (hring.enter hnot hself).mono fun other hother ↦ ?_
    have hne : other ≠ ptr := by
      rintro rfl
      exact hstandby hother
    exact (halters.standby_iff hne).2 hother
  · intro other hne
    rw [List.mem_append, List.mem_singleton, or_iff_left hne, hmem]
  · rw [hrelinked, h.relinked, hself]
    simp
  · intro _ hmigrating
    rw [not_migrating_of_active hactive] at hmigrating
    exact absurd hmigrating (by decide)

/-- An actor leaves the list that it is in and is not active any more. -/
theorem leave (halters : ledger.Alters ledger' ptr) (hlinks : ledger'.links = ledger.links.del (.actor ptr))
    (hrelinked : ledger'.relinked = ledger.relinked) (hout : ¬ledger'.Active ptr)
    (hrecovering : (ledger'.cards ptr).replicationTimer.Armed → ledger'.Replica ptr)
    (hprimary : ledger'.Live ptr → (ledger'.cards ptr).currentState.migrating = true →
      (ledger'.cards ptr).replicationState ≠ .isReplica) : ledger'.ActivesListed := by
  obtain ⟨actives, hring, hmem⟩ := h.listed
  refine h.alter halters (actives.erase ptr) ?_ ?_ (iff_of_false ?_ hout) (hrelinked.trans h.relinked)
    hrecovering hprimary
  · rw [hlinks]
    refine (hring.leave ptr).mono fun other hother ↦ ?_
    exact (halters.standby_iff hother.2).2 hother.1
  · intro other hne
    rw [List.mem_erase_of_ne hne, hmem]
  · exact hring.nodup.not_mem_erase

/-- An active actor moves to the tail of the list. -/
theorem rotate (halters : ledger.Alters ledger' ptr)
    (hlinks : ledger'.links = (ledger.links.del (.actor ptr)).addTail .activeFlows (.actor ptr))
    (hrelinked : ledger'.relinked = (ledger.relinked ||
      (ledger.links.del (.actor ptr)).next (.actor ptr) != .actor ptr)) (hactive : ledger'.Active ptr)
    (hoff : ¬(ledger'.cards ptr).replicationTimer.Armed) : ledger'.ActivesListed := by
  obtain ⟨actives, hring, hmem⟩ := h.listed
  have hself := (Links.del_self ledger.links (.actor ptr)).1
  refine h.alter halters (actives.erase ptr ++ [ptr]) ?_ ?_ (iff_of_true (by simp) hactive) ?_
    (fun harmed ↦ absurd harmed hoff) ?_
  · rw [hlinks]
    refine ((hring.leave ptr).enter hring.nodup.not_mem_erase hself).mono fun other hother ↦ ?_
    exact (halters.standby_iff hother.2).2 hother.1
  · intro other hne
    rw [List.mem_append, List.mem_singleton, or_iff_left hne, List.mem_erase_of_ne hne, hmem]
  · rw [hrelinked, h.relinked, hself]
    simp
  · intro _ hmigrating
    rw [not_migrating_of_active hactive] at hmigrating
    exact absurd hmigrating (by decide)

theorem storage (runtimeId : UInt32) :
    (ledger.addStorage runtimeId).ActivesListed ∧ (ledger.removeStorage runtimeId).ActivesListed := by
  have hinit : ∀ head, { ledger with links := ledger.links.itemInit (.replicaFlows head) }.ActivesListed := by
    intro head
    obtain ⟨actives, hring, hmem⟩ := h.listed
    exact ⟨⟨actives, hring.storage head, hmem⟩, h.relinked, h.recovering, h.primary⟩
  unfold addStorage removeStorage
  cases ledger.replicaFlowLists runtimeId with
  | none => exact ⟨(hinit ledger.nextHead).of_same rfl rfl rfl rfl, h⟩
  | some head => exact ⟨hinit head, h.of_same rfl rfl rfl rfl⟩

end

theorem not_normal_of_migrating {state : FlowState} (h : state.migrating = true) :
    state ≠ .normalProcessing := by
  rintro rfl
  exact absurd h (by decide)

section

variable (h : ledger.ActivesListed)

include h

theorem admitActive (hsound : ledger.Sound) {ring : RingBuffer ℕ} (key : FlowKey)
    {replication : ReplicationState} (hreplication : replication ≠ .isReplica)
    (hpop : ledger.allocator.pop = some (ptr, ring)) :
    (ledger.enroll ptr ring .activeFlows key .normalProcessing replication).ActivesListed := by
  have hfresh : ¬ledger.Live ptr := (hsound.pool.pop hpop).2.1
  have hcard : (ledger.enroll ptr ring .activeFlows key .normalProcessing replication).cards ptr =
      ledger.admittedCard ptr key .normalProcessing replication := by
    rw [cards_enroll, update_self]
  refine h.enter (.enroll hsound _ key _ _ hpop) rfl rfl (fun hactive ↦ hfresh hactive.1)
    (fun hstandby ↦ hfresh hstandby.1.1) ?_ ?_
  · rw [Active, hcard, hsound.live_enroll hpop]
    exact ⟨.inl rfl, rfl, hreplication⟩
  · rw [hcard]
    exact fun harmed ↦ hfresh (h.recovering ptr harmed).1

theorem admitReplica (hsound : ledger.Sound) {ring : RingBuffer ℕ} (head : ℕ) (key : FlowKey)
    (hpop : ledger.allocator.pop = some (ptr, ring)) :
    (ledger.enroll ptr ring (.replicaFlows head) key .normalProcessing .isReplica).ActivesListed := by
  obtain ⟨actives, hring, hmem⟩ := h.listed
  have hfresh : ¬ledger.Live ptr := (hsound.pool.pop hpop).2.1
  have hnot : ptr ∉ actives := fun hactive ↦ hfresh ((hmem ptr).1 hactive).1
  have hself := hring.unlinked hnot fun hstandby ↦ hfresh hstandby.1.1
  have halters := Alters.enroll hsound (.replicaFlows head) key .normalProcessing .isReplica hpop
  have hcard : (ledger.enroll ptr ring (.replicaFlows head) key .normalProcessing .isReplica).cards ptr =
        ledger.admittedCard ptr key .normalProcessing .isReplica := by
    rw [cards_enroll, update_self]
  have hoff : ¬((ledger.enroll ptr ring (.replicaFlows head) key .normalProcessing .isReplica).cards
      ptr).replicationTimer.Armed := by
    rw [hcard]
    exact fun harmed ↦ hfresh (h.recovering ptr harmed).1
  have hreplica :
      (ledger.enroll ptr ring (.replicaFlows head) key .normalProcessing .isReplica).Replica ptr := by
    rw [Replica, hcard, hsound.live_enroll hpop]
    exact ⟨.inl rfl, rfl, rfl⟩
  refine h.alter halters actives ?_ (fun other _ ↦ hmem other) (iff_of_false hnot ?_) ?_ (fun _ ↦ hreplica) ?_
  · refine (hring.stand hnot hself).mono fun other hother ↦ ?_
    rcases hother with rfl | hother
    · exact ⟨hreplica, hoff⟩
    · have hne : other ≠ ptr := by
        rintro rfl
        exact hfresh hother.1.1
      exact (halters.standby_iff hne).2 hother
  · exact fun hactive ↦ not_replica_of_active hactive hreplica
  · change (ledger.relinked || ledger.links.next (.actor ptr) != .actor ptr) = false
    rw [h.relinked, hself]
    simp
  · intro _ hmigrating
    exact absurd hreplica.2.1 (not_normal_of_migrating hmigrating)

/-- An actor is removed, whatever its state was changed to before. -/
theorem remove {base : Ledger} (hleaves : ledger.Leaves base ptr) (hlinks : base.links = ledger.links)
    (hrelinked : base.relinked = ledger.relinked) : (base.remove ptr).ActivesListed := by
  have hgone := hleaves.gone
  refine h.leave hleaves.remove ?_ ?_ (fun hactive ↦ hgone hactive.1) ?_ fun hmem ↦ absurd hmem hgone
  · rw [base.remove_eq hleaves.ne_deadend, hlinks]
  · rw [base.remove_eq hleaves.ne_deadend]
    exact hrelinked
  · rw [hleaves.card]
    exact fun harmed ↦ absurd harmed (not_armed_removedCard _ .replication)

theorem depart (requestMsgId : UInt32) (hactive : ledger.Active ptr) :
    ((ledger.depart ptr).request ptr .migrationSource
      ⟨requestMsgId, .startMigrationTimeout⟩).ActivesListed := by
  refine h.leave (.of_touches ((Touches.depart ledger ptr).trans (.request _ ptr _ _))) rfl rfl ?_ ?_ ?_
  · rw [Active, cards_request]
    exact fun hnormal ↦ absurd hnormal.2.1 (by simp)
  · rw [cards_request]
    exact fun harmed ↦ absurd (h.recovering ptr harmed) (not_replica_of_active hactive)
  · rw [cards_request]
    exact fun _ _ ↦ hactive.2.2

/-- `coordinator_mp` takes an active actor that refuses to migrate. -/
theorem refuse (hactive : ledger.Active ptr) : ((ledger.depart ptr).giveUp ptr).ActivesListed := by
  have hcard := (ledger.depart ptr).cards_giveUp ptr
  refine h.rotate (.of_touches ((Touches.depart ledger ptr).trans (.giveUp _ ptr))) rfl rfl ?_ ?_
  · rw [Active, hcard]
    exact ⟨hactive.1, rfl, hactive.2.2⟩
  · rw [hcard]
    exact fun harmed ↦ not_replica_of_active hactive (h.recovering ptr harmed)

theorem abandon (hlive : ledger.Live ptr) (hmigrating : (ledger.cards ptr).currentState.migrating = true) :
    ((ledger.disarm ptr .migration).giveUp ptr).ActivesListed := by
  have hnormal := not_normal_of_migrating hmigrating
  have hcard := (ledger.disarm ptr .migration).cards_giveUp ptr
  have hdisarmed : (ledger.disarm ptr .migration).cards ptr = (ledger.cards ptr).setTimer .migration
      (ledger.cards ptr).migrationTimer.invalidate := cards_setCard ledger ptr _
  refine h.enter (.of_touches ((Touches.disarm ledger ptr .migration).trans (.giveUp _ ptr))) rfl rfl
    (fun hactive ↦ hnormal hactive.2.1) (fun hstandby ↦ hnormal hstandby.1.2.1) ?_ ?_
  · rw [Active, hcard, hdisarmed]
    exact ⟨hlive, rfl, h.primary ptr hlive hmigrating⟩
  · rw [hcard, hdisarmed]
    exact fun harmed ↦ hnormal (h.recovering ptr harmed).2.1

theorem request {state : FlowState} (timer : ActorTimer) (hlive : ledger.Live ptr)
    (hmigrating : (ledger.cards ptr).currentState.migrating = true) (hstate : state.migrating = true) :
    (ledger.request ptr state timer).ActivesListed := by
  have hnormal := not_normal_of_migrating hmigrating
  have hcard := ledger.cards_request ptr state timer
  refine h.stay (.of_touches (.request ledger ptr state timer)) rfl rfl (iff_of_false ?_ ?_)
    (fun hstandby ↦ absurd hstandby.1.2.1 hnormal) ?_ ?_
  · rw [Active, hcard]
    exact fun hactive ↦ not_normal_of_migrating hstate hactive.2.1
  · exact fun hactive ↦ hnormal hactive.2.1
  · rw [hcard]
    exact fun harmed ↦ absurd (h.recovering ptr harmed).2.1 hnormal
  · rw [hcard]
    exact fun _ _ ↦ h.primary ptr hlive hmigrating

/-- A replica that is being recovered ends up in the active list. -/
theorem endRecovery (succeeded : Bool) (harmed : (ledger.cards ptr).replicationTimer.Armed) :
    (ledger.endRecovery ptr succeeded).ActivesListed := by
  have hreplica := h.recovering ptr harmed
  have hcard := ledger.cards_endRecovery ptr succeeded
  refine h.enter (.of_touches (.endRecovery ledger ptr succeeded)) rfl rfl
    (fun hactive ↦ not_replica_of_active hactive hreplica) (fun hstandby ↦ hstandby.2 harmed) ?_ ?_
  · rw [Active, hcard]
    exact ⟨hreplica.1, hreplica.2.1, by simp⟩
  · rw [hcard]
    exact fun harmed ↦ harmed rfl

theorem startRecovery (requestMsgId : UInt32) (recovery : RecoveryStats) (hreplica : ledger.Replica ptr) :
    (((ledger.unlink ptr).awaitRecovery ptr requestMsgId).setRecovery recovery).ActivesListed := by
  have hcard := (ledger.unlink ptr).cards_awaitRecovery ptr requestMsgId
  have hreplica' : (((ledger.unlink ptr).awaitRecovery ptr requestMsgId).setRecovery
      recovery).Replica ptr := by
    rw [Replica, setRecovery, hcard]
    exact hreplica
  have halters : ledger.Alters (((ledger.unlink ptr).awaitRecovery ptr requestMsgId).setRecovery
      recovery) ptr := ⟨fun other hne ↦ update_of_ne hne _ _, fun _ _ ↦ Iff.rfl⟩
  refine h.leave halters rfl rfl (fun hactive ↦ not_replica_of_active hactive hreplica') (fun _ ↦ hreplica') ?_
  intro _ hmigrating
  exact absurd hreplica'.2.1 (not_normal_of_migrating hmigrating)

/-- The change of a card keeps what the active list depends on. -/
theorem modifyCard {change : Card → Card} (htouch : ledger.Touches (ledger.modifyCard ptr change) ptr)
    (hstate : (change (ledger.cards ptr)).currentState = (ledger.cards ptr).currentState)
    (hreplica : (change (ledger.cards ptr)).replicationState = .isReplica ↔
      (ledger.cards ptr).replicationState = .isReplica)
    (hstandby : ledger.Standby ptr → ¬(change (ledger.cards ptr)).replicationTimer.Armed)
    (hrecovering : (change (ledger.cards ptr)).replicationTimer.Armed → ledger.Replica ptr) :
    (ledger.modifyCard ptr change).ActivesListed := by
  have hcard : (ledger.modifyCard ptr change).cards ptr = change (ledger.cards ptr) :=
    cards_setCard ledger ptr _
  have hsame : (ledger.modifyCard ptr change).Replica ptr ↔ ledger.Replica ptr := by
    rw [Replica, Replica, hcard, hstate, hreplica]
    exact Iff.rfl
  refine h.stay (.of_touches htouch) rfl rfl ?_ ?_ ?_ ?_
  · rw [Active, Active, hcard, hstate, Ne, hreplica]
    exact Iff.rfl
  · intro hbefore
    refine ⟨hsame.2 hbefore.1, ?_⟩
    rw [hcard]
    exact hstandby hbefore
  · rw [hcard, hsame]
    exact hrecovering
  · rw [hcard, hstate, Ne, hreplica]
    exact h.primary ptr

theorem active_of_peekFirst (hpeek : ledger.links.peekFirst .activeFlows = some (.actor ptr)) :
    ledger.Active ptr := by
  obtain ⟨actives, hring, hmem⟩ := h.listed
  exact (hmem ptr).1 (hring.mem_of_peekFirst hpeek)

theorem active_of_departs {input : Input σ} (hdeparts : ledger.Departs ptr input) : ledger.Active ptr := by
  cases input with
  | migrationIteration => exact h.active_of_peekFirst hdeparts.2
  | _ => exact hdeparts.elim

theorem effect (hsound : ledger.Sound) (hawaiting : ledger.Awaiting) {input : Input σ}
    (hnone : ledger.NoneArrives input) (heffect : ledger.Effect input ledger') : ledger'.ActivesListed := by
  cases heffect with
  | unchanged => exact h
  | dropReplica _ _ ptr _ hhave =>
    refine h.modifyCard (.modifyCard rfl rfl rfl rfl) rfl ?_ (fun hstandby ↦ hstandby.2) (h.recovering ptr)
    simp [hhave]
  | newFlow _ _ _ _ _ _ hpop hreplication =>
    exact h.admitActive hsound _ hreplication hpop
  | newTarget env senderRtid message inputHeader outputHeader key _ _ hrecv hbody hpop =>
    rw [hnone.created env senderRtid message inputHeader outputHeader key rfl hrecv hbody] at hpop
    cases hpop
  | newReplica env senderRtid message inputHeader outputHeader key states pkt ptr ring head hrecv hbody
      hkey hpop =>
    exact h.admitReplica hsound head key hpop
  | bindDeadend | skipMigration | recoveryDone | migrateTo | recover => exact h.of_same rfl rfl rfl rfl
  | idleAgain _ ptr =>
    exact h.modifyCard (.modifyCard rfl rfl rfl rfl) rfl Iff.rfl (fun hstandby ↦ hstandby.2) (h.recovering ptr)
  | expire _ _ _ harmed htype => exact h.remove (.expire hsound harmed htype) rfl rfl
  | refuse _ _ _ hpeek => exact h.refuse (h.active_of_peekFirst hpeek)
  | depart _ _ requestMsgId _ hpeek => exact h.depart requestMsgId (h.active_of_peekFirst hpeek)
  | abandon _ ptr hanswers =>
    obtain ⟨hlive, hmigrating⟩ := hawaiting ptr (armed_of_answers hsound hnone.named hanswers)
    exact h.abandon hlive hmigrating
  | request _ ptr _ timer hanswers hstate =>
    obtain ⟨hlive, hmigrating⟩ := hawaiting ptr (armed_of_answers hsound hnone.named hanswers)
    refine h.request timer hlive hmigrating ?_
    rcases hstate with rfl | rfl | rfl
    · exact hmigrating
    · rfl
    · rfl
  | arrive _ _ _ ptr states hdelivers hbody =>
    exact absurd ⟨hdelivers, states, hbody⟩ (hnone.arrives ptr)
  | complete _ _ _ _ hdelivers => exact h.remove (.complete hsound hdelivers) rfl rfl
  | startRecovery _ _ _ requestMsgId hpeek =>
    obtain ⟨actives, hring, hmem⟩ := h.listed
    exact h.startRecovery requestMsgId _ (hring.standby_of_peekFirst hpeek).2.1
  | retryRecovery _ ptr requestMsgId hanswers =>
    have harmed := armed_of_answers hsound hnone.named hanswers
    exact h.modifyCard (.awaitRecovery ledger ptr requestMsgId) rfl Iff.rfl
      (fun hstandby ↦ absurd harmed hstandby.2) fun _ ↦ h.recovering ptr harmed
  | endRecovery _ _ succeeded hanswers =>
    exact h.endRecovery succeeded (armed_of_answers hsound hnone.named hanswers)
  | addStorage runtimeId => exact (h.storage runtimeId).1
  | removeStorage runtimeId => exact (h.storage runtimeId).2

end

end ActivesListed

end Ledger

namespace Runtime

variable {σ τ : Type}

/-- `active_flows_rrlist_` holds exactly the live actors that process packets normally and are not replicas. No
linked item was linked again, and `coordinator_mp` pops no migration target. -/
structure ActiveFlowsExact (rt : Runtime σ τ) : Prop where
  members : ∃ actives : List ℕ, rt.links.IsRing .activeFlows (actives.map .actor) ∧
    ∀ ptr, ptr ∈ actives ↔ rt.Allocated ptr ∧ ptr ≠ deadendFlowActor ∧
      (rt.actors ptr).currentState = .normalProcessing ∧ (rt.actors ptr).replicationState ≠ .isReplica
  relinked : rt.relinked = false
  popped : ∀ ptr, rt.links.peekFirst .activeFlows = some (.actor ptr) →
    (rt.actors ptr).currentState ≠ .migrationTarget

/-- The active list is exact in every run into which no migration comes. -/
theorem active_flows_exact {rt : Runtime σ τ}
    (hreach : (system σ τ).Reachable (fun rt input ↦ rt.ledger.NoneArrives input) rt) :
    rt.ActiveFlowsExact := by
  have hsound := sound_of_reachable hreach
  have hlisted : rt.ledger.Awaiting ∧ rt.ledger.ActivesListed := by
    apply @ledger_invariant σ τ _ (fun ledger ↦ ledger.Awaiting ∧ ledger.ActivesListed) rt hreach
    · intro config serviceChain code zero sharedState
      have hblank := blank_boot config serviceChain code zero sharedState
      refine ⟨?_, ⟨[], .detached, ?_⟩, rfl, ?_, ?_⟩
      · intro ptr harmed
        exact absurd harmed ((hblank ptr).timers .migration)
      · intro ptr
        rw [Ledger.Active, (hblank ptr).state]
        simp
      · intro ptr harmed
        exact absurd harmed ((hblank ptr).timers .replication)
      · intro ptr _ hmigrating
        rw [(hblank ptr).state] at hmigrating
        exact absurd hmigrating (by decide)
    · intro rt input ledger' hsound hboth hnone heffect
      obtain ⟨hawaiting, hlisted⟩ := hboth
      refine ⟨hawaiting.effect hsound hnone.named ?_ ?_ heffect,
        hlisted.effect hsound hawaiting hnone heffect⟩
      · intro ptr harrives
        exact absurd harrives (hnone.arrives ptr)
      · intro ptr hdeparts
        have hactive := hlisted.active_of_departs hdeparts
        exact ⟨hactive.1, Ledger.ActivesListed.not_migrating_of_active hactive⟩
  obtain ⟨actives, hring, hmem⟩ := hlisted.2.listed
  refine ⟨⟨actives, hring.ring, ?_⟩, hlisted.2.relinked, ?_⟩
  · intro ptr
    rw [hmem]
    constructor
    · intro hactive
      refine ⟨hactive.1, ?_, hactive.2⟩
      rintro rfl
      have hstate := hactive.2.1
      rw [hsound.blank.state] at hstate
      cases hstate
    · rintro ⟨hlive, -, hstate⟩
      exact ⟨hlive, hstate⟩
  · intro ptr hpeek htarget
    have hstate : (rt.actors ptr).currentState = .normalProcessing :=
      ((hmem ptr).1 (hring.mem_of_peekFirst hpeek)).2.1
    rw [hstate] at htarget
    cases htarget

/-- Two flows come in and the first is being migrated out: the list holds the second. -/
theorem active_flows_exact_during_migration : ∃ rt : Runtime Unit Unit,
    (system Unit Unit).run (smallBoot []) [.packet connected (tcpPacket 7),
        .packet connected (tcpPacket 8), .migrateTo 1 2, .migrationIteration connected] = some rt ∧
      (rt.actors 1).currentState = .migrationSource ∧
      rt.links.peekFirst .activeFlows = some (.actor 2) ∧ rt.ActiveFlowsExact := by
  obtain ⟨rt, hsteps, hstate, hpeek⟩ : ∃ rt ∈ (system Unit Unit).run (smallBoot [])
      [.packet connected (tcpPacket 7), .packet connected (tcpPacket 8), .migrateTo 1 2,
        .migrationIteration connected], (rt.actors 1).currentState = .migrationSource ∧
      rt.links.peekFirst .activeFlows = some (.actor 2) := by decide +kernel
  refine ⟨rt, hsteps, hstate, hpeek, active_flows_exact ?_⟩
  refine TransitionSystem.reachable_run _ (.start (init_smallBoot [])) ?_ hsteps
  intro input hinput rt
  simp only [List.mem_cons, List.not_mem_nil, or_false] at hinput
  rcases hinput with rfl | rfl | rfl | rfl <;> exact ⟨by simp, fun _ ↦ id, trivial⟩

/-- The request that creates the target of a migration. -/
def createTarget : Input Unit :=
  .message connected 2 ⟨5, coordinatorActorId, 9, .createMigrationTargetActor
    FlowActor.blankHeader FlowActor.blankHeader (flowKeyOf (tcpPacket 7))⟩

/-- The flow state that the source then sends to the target. -/
def sendState : Input Unit :=
  .message connected 2 ⟨5, 3, 10, .migrateFlowState fun _ ↦ ()⟩

/-- A migration target is on the active list before its flow arrives, and is linked again when it does. -/
theorem target_listed_and_relinked : ∃ rt rt' : Runtime Unit Unit,
    (system Unit Unit).Reachable TransitionSystem.anyStep rt ∧
      rt.links.peekFirst .activeFlows = some (.actor 1) ∧
      (rt.actors 1).currentState = .migrationTarget ∧ ¬rt.ActiveFlowsExact ∧
      (system Unit Unit).step rt sendState = some rt' ∧ rt'.relinked = true := by
  obtain ⟨rt, hcreate, rt', hsend, hpeek, hstate, hrelinked⟩ :
      ∃ rt ∈ (system Unit Unit).step (smallBoot []) createTarget, ∃ rt' ∈ (system Unit Unit).step rt sendState,
        rt.links.peekFirst .activeFlows = some (.actor 1) ∧
          (rt.actors 1).currentState = .migrationTarget ∧ rt'.relinked = true := by decide +kernel
  refine ⟨rt, rt', .next createTarget (.start (init_smallBoot [])) trivial hcreate, hpeek, hstate, ?_,
    hsend, hrelinked⟩
  intro hexact
  exact hexact.popped 1 hpeek hstate

end Runtime

end NfvActor.Actor
