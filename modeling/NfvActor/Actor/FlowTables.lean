import Mathlib.Tactic
import NfvActor.Actor.Awaiting

/-!
# The flow table, the actor-id table and the live actors

`htable_` finds the actor of a flow and `actorid_htable_` the actor with an id. They stay in step with the live
actors as long as every new binding is fresh. `create_migration_target_actor_t` does not look its flow key up,
and a second actor for a key takes the entry of the first.
-/

namespace NfvActor.Actor

open NfvActor.Foundation
open NfvActor.Actor.Runtime (deadendFlowActor)
open NfvActor.Reliable (Packet)
open Function

namespace Ledger

variable {σ : Type}

/-- Every live actor other than the deadend is found under its key and under its id. -/
structure Registered (ledger : Ledger) : Prop where
  flow : ∀ ptr, ledger.Live ptr → ptr ≠ deadendFlowActor →
    ledger.htable (ledger.cards ptr).flowKey = some ptr
  id : ∀ ptr, ledger.Live ptr → ptr ≠ deadendFlowActor →
    ledger.actoridHtable (ledger.cards ptr).actorId = some ptr

/-- No live actor other than the deadend has this id. -/
def IdUnused (ledger : Ledger) (id : UInt32) : Prop :=
  ∀ ptr, ledger.Live ptr → ptr ≠ deadendFlowActor → (ledger.cards ptr).actorId ≠ id

/-- No actor other than the deadend is bound to this flow key. -/
def Unbound (ledger : Ledger) (key : FlowKey) : Prop :=
  ∀ ptr, ledger.htable key = some ptr → ptr = deadendFlowActor

theorem unbound_of_none {ledger : Ledger} {key : FlowKey} (hnone : ledger.htable key = none) :
    ledger.Unbound key := by
  intro ptr hentry
  rw [hnone] at hentry
  cases hentry

/-- The flow that a step binds has no other actor, and the id of its actor is new. -/
def BindsFresh (ledger : Ledger) : Input σ → Prop
  | .packet _ pkt => ledger.htable (flowKeyOf pkt) = none → ledger.IdUnused ledger.nextFlowActorId
  | .message _ _ message => message.recvActorId = coordinatorActorId →
    match message.body with
    | .createMigrationTargetActor _ _ key => ledger.allocator.pop ≠ none →
      ledger.Unbound key ∧ ledger.IdUnused ledger.nextFlowActorId
    | .replication _ _ key _ _ => ledger.htable key = none →
      (ledger.allocator.pop ≠ none → ledger.IdUnused ledger.nextFlowActorId) ∧
        (ledger.allocator.pop = none → ledger.IdUnused (ledger.cards deadendFlowActor).actorId)
    | _ => True
  | _ => True

theorem BindsFresh.admits {ledger : Ledger} {input : Input σ} {key : FlowKey}
    (hfresh : ledger.BindsFresh input) (hadmits : ledger.Admits input key) (hpop : ledger.allocator.pop ≠ none) :
    ledger.Unbound key ∧ ledger.IdUnused ledger.nextFlowActorId := by
  cases hadmits with
  | packet _ _ hnone => exact ⟨unbound_of_none hnone, hfresh hnone⟩
  | target _ _ _ _ _ _ hrecv hbody =>
    have hbinds := hfresh hrecv
    rw [hbody] at hbinds
    exact hbinds hpop
  | replica _ _ _ _ _ _ _ _ hrecv hbody hnone =>
    have hbinds := hfresh hrecv
    rw [hbody] at hbinds
    exact ⟨unbound_of_none hnone, (hbinds hnone).1 hpop⟩

namespace Registered

variable {ledger ledger' : Ledger} {ptr : ℕ}

theorem touch (h : ledger.Registered) (htouch : ledger.Touches ledger' ptr) : ledger'.Registered := by
  have hsame : ∀ other, (ledger'.cards other).flowKey = (ledger.cards other).flowKey ∧
      (ledger'.cards other).actorId = (ledger.cards other).actorId := by
    intro other
    by_cases heq : other = ptr
    · rw [heq]
      exact ⟨htouch.flowKey, htouch.actorId⟩
    · rw [htouch.others other heq]
      exact ⟨rfl, rfl⟩
  constructor
  · intro other hlive hne
    rw [Live, htouch.allocator] at hlive
    rw [htouch.htable, (hsame other).1]
    exact h.flow other hlive hne
  · intro other hlive hne
    rw [Live, htouch.allocator] at hlive
    rw [htouch.actoridHtable, (hsame other).2]
    exact h.id other hlive hne

theorem enroll (h : ledger.Registered) (hsound : ledger.Sound) {ring : RingBuffer ℕ} {head : ListNode}
    {key : FlowKey} {state : FlowState} {replication : ReplicationState}
    (hpop : ledger.allocator.pop = some (ptr, ring)) (hunbound : ledger.Unbound key)
    (hid : ledger.IdUnused ledger.nextFlowActorId) :
    (ledger.enroll ptr ring head key state replication).Registered := by
  have hcards := ledger.cards_enroll ptr ring head key state replication
  have hhtable : (ledger.enroll ptr ring head key state replication).htable =
      update ledger.htable key (some ptr) := rfl
  have hids := ledger.actoridHtable_enroll ptr ring head key state replication
  constructor
  · intro other hlive hne
    by_cases heq : other = ptr
    · rw [heq, hhtable, hcards, update_self]
      exact update_self ..
    · have hother := h.flow other (((hsound.live_enroll hpop other).1 hlive).resolve_left heq) hne
      have hkey : (ledger.cards other).flowKey ≠ key := by
        intro hkey
        rw [hkey] at hother
        exact hne (hunbound other hother)
      rw [hhtable, hcards, update_of_ne heq, update_of_ne hkey, hother]
  · intro other hlive hne
    by_cases heq : other = ptr
    · rw [heq, hids, hcards, update_self]
      exact update_self ..
    · have hlive' := ((hsound.live_enroll hpop other).1 hlive).resolve_left heq
      rw [hids, hcards, update_of_ne heq, update_of_ne (hid other hlive' hne)]
      exact h.id other hlive' hne

theorem bindDeadend (h : ledger.Registered) {key : FlowKey} (hnone : ledger.htable key = none)
    (hid : ledger.IdUnused (ledger.cards deadendFlowActor).actorId) :
    (ledger.bind key deadendFlowActor).Registered := by
  constructor
  · intro other hlive hne
    have hother := h.flow other hlive hne
    have hkey : (ledger.cards other).flowKey ≠ key := by
      intro hkey
      rw [hkey, hnone] at hother
      cases hother
    exact (update_of_ne hkey _ _).trans hother
  · intro other hlive hne
    exact (update_of_ne (hid other hlive hne) _ _).trans (h.id other hlive hne)

/-- Removing an actor clears its own entries only. -/
theorem remove {mid : Ledger} (h : mid.Registered) (hleaves : ledger.Leaves mid ptr) :
    (mid.remove ptr).Registered := by
  obtain ⟨-, hsound, hlive, hptr⟩ := hleaves
  have heq := mid.remove_eq hptr
  have hcard : ∀ other, other ≠ ptr → (mid.remove ptr).cards other = mid.cards other :=
    fun other hne ↦ by simp [heq, hne]
  constructor
  · intro other hmem hne
    obtain ⟨hother, hlive'⟩ := (hsound.live_remove hlive hptr other).1 hmem
    have hentry := h.flow other hlive' hne
    have hkey : (mid.cards other).flowKey ≠ (mid.cards ptr).flowKey := by
      intro hkey
      rw [hkey, h.flow ptr hlive hptr] at hentry
      exact hother (Option.some.inj hentry).symm
    rw [hcard other hother, heq]
    exact (update_of_ne hkey _ _).trans hentry
  · intro other hmem hne
    obtain ⟨hother, hlive'⟩ := (hsound.live_remove hlive hptr other).1 hmem
    have hentry := h.id other hlive' hne
    have hid : (mid.cards other).actorId ≠ (mid.cards ptr).actorId := by
      intro hid
      rw [hid, h.id ptr hlive hptr] at hentry
      exact hother (Option.some.inj hentry).symm
    rw [hcard other hother, heq]
    exact (update_of_ne hid _ _).trans hentry

theorem effect (h : ledger.Registered) (hsound : ledger.Sound) {input : Input σ}
    (hfresh : ledger.BindsFresh input) (heffect : ledger.Effect input ledger') : ledger'.Registered := by
  cases heffect.transfer with
  | none _ _ _ _ htouch => exact h.touch htouch
  | enroll _ _ _ _ _ _ _ hpop hadmits =>
    obtain ⟨hunbound, hid⟩ := hfresh.admits hadmits (by simp [hpop])
    exact h.enroll hsound hpop hunbound hid
  | bindDeadend _ _ _ _ _ _ _ _ hrecv hbody hnone hpop =>
    have hbinds := hfresh hrecv
    rw [hbody] at hbinds
    exact h.bindDeadend hnone ((hbinds hnone).2 hpop)
  | expire _ ptr _ harmed htype =>
    have hdisarmed := h.touch (.disarm ledger ptr .idle)
    exact remove ⟨hdisarmed.flow, hdisarmed.id⟩ (.expire hsound harmed htype)
  | complete _ _ _ ptr hdelivers =>
    exact ((h.touch (.settle ledger ptr)).touch (.disarm _ ptr .idle)).remove (.complete hsound hdelivers)

end Registered

end Ledger

namespace Runtime

variable {σ τ : Type}

/-- The actor has been handed out by the allocator and not given back. -/
def Allocated (rt : Runtime σ τ) (ptr : ℕ) : Prop := ptr ∈ rt.allocator.outstanding

/-- Both tables and the actors in use, the deadend apart, are in bijection. -/
structure TablesAgree (rt : Runtime σ τ) : Prop where
  flow : ∀ ptr, rt.Allocated ptr → ptr ≠ deadendFlowActor →
    rt.htable (rt.actors ptr).flowKey = some ptr
  id : ∀ ptr, rt.Allocated ptr → ptr ≠ deadendFlowActor →
    rt.actoridHtable (rt.actors ptr).actorId = some ptr
  flow_entry : ∀ key ptr, rt.htable key = some ptr → ptr ≠ deadendFlowActor →
    rt.Allocated ptr ∧ (rt.actors ptr).flowKey = key
  id_entry : ∀ id ptr, rt.actoridHtable id = some ptr → ptr ≠ deadendFlowActor →
    rt.Allocated ptr ∧ (rt.actors ptr).actorId = id

theorem tables_agree {rt : Runtime σ τ}
    (hreach : (system σ τ).Reachable (fun rt input ↦ rt.ledger.BindsFresh input) rt) :
    rt.TablesAgree := by
  have hsound := sound_of_reachable hreach
  have hregistered : rt.ledger.Registered := by
    apply ledger_invariant hreach
    · intro config serviceChain code zero sharedState
      constructor
      · intro ptr hlive hne
        exact absurd (live_boot hlive) hne
      · intro ptr hlive hne
        exact absurd (live_boot hlive) hne
    · intro rt input ledger' hsound hregistered hfresh heffect
      exact hregistered.effect hsound hfresh heffect
  refine ⟨hregistered.flow, hregistered.id, ?_, ?_⟩
  · intro key ptr hentry hne
    exact ⟨hsound.flow_live key ptr hentry, hsound.flow_key key ptr hentry hne⟩
  · intro id ptr hentry _
    exact ⟨hsound.id_live id ptr hentry, hsound.id_eq id ptr hentry⟩

theorem tables_agree_after_first_packet : ∃ rt : Runtime Unit Unit,
    (system Unit Unit).step (smallBoot []) (.packet connected (tcpPacket 7)) = some rt ∧
      rt.htable (flowKeyOf (tcpPacket 7)) = some 1 ∧ rt.TablesAgree := by
  obtain ⟨rt, hstep, hentry⟩ : ∃ rt ∈ (system Unit Unit).step (smallBoot []) (.packet connected (tcpPacket 7)),
      rt.htable (flowKeyOf (tcpPacket 7)) = some 1 := by decide +kernel
  refine ⟨rt, hstep, hentry, tables_agree (.next _ (.start (init_smallBoot [])) ?_ hstep)⟩
  intro _ ptr hlive hne
  exact absurd (live_boot hlive) hne

/-- A flow that has an actor is given a second one; when the first is idle, its removal deletes the entry of the
second. -/
theorem tables_disagree_after_second_actor : ∃ rt : Runtime Unit Unit,
    (system Unit Unit).Reachable TransitionSystem.anyStep rt ∧ rt.Allocated 2 ∧
      rt.htable (rt.actors 2).flowKey = none ∧ ¬rt.TablesAgree := by
  obtain ⟨rt, hsteps, hid, hnone⟩ : ∃ rt ∈ (system Unit Unit).run (smallBoot [])
      [.packet connected (tcpPacket 7),
        .message connected 2 ⟨5, coordinatorActorId, 9, .createMigrationTargetActor
          FlowActor.blankHeader FlowActor.blankHeader (flowKeyOf (tcpPacket 7))⟩,
        .fire connected 1 .idle, .fire connected 1 .idle],
      rt.actoridHtable 4 = some 2 ∧ rt.htable (rt.actors 2).flowKey = none := by decide +kernel
  have hreach := TransitionSystem.Reachable.replay (init_smallBoot []) hsteps
  have hlive : rt.Allocated 2 := (sound_of_reachable hreach).id_live 4 2 hid
  refine ⟨rt, hreach, hlive, hnone, fun hagree ↦ ?_⟩
  have hentry := hagree.flow 2 hlive (by decide)
  rw [hnone] at hentry
  cases hentry

end Runtime

end NfvActor.Actor
