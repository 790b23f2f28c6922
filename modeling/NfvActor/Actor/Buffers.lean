import Mathlib.Tactic
import NfvActor.Actor.ActiveFlows
import NfvActor.Actor.Changes

/-!
# The buffers of migration targets

A packet for a migration target takes a cell of `collective_buffer_`. The cells come back when the packets are
replayed or the idle check removes the target. Every other way out of the target state strands them: the target
is on the active list, where `coordinator_mp` may take it to migrate it.
-/

namespace NfvActor.Actor

open NfvActor.Foundation
open NfvActor.Actor.Runtime (deadendFlowActor)
open NfvActor.Reliable (Packet)
open Function
open Option (bind_eq_some_iff map_eq_some_iff)

/-- The cells of `collective_buffer_`: the free ones and those in buffer lists. -/
@[ext]
structure CellStore where
  free : RingBuffer ℕ
  held : ℕ → List (ℕ × Packet)

namespace CellStore

/-- A buffer list gets one more cell. -/
def keep (store : CellStore) (ptr cell : ℕ) (ring : RingBuffer ℕ) (pkt : Packet) : CellStore where
  free := ring
  held := update store.held ptr (store.held ptr ++ [(cell, pkt)])

/-- A buffer list is initialised. -/
def clear (store : CellStore) (ptr : ℕ) : CellStore :=
  { store with held := update store.held ptr [] }

/-- The cells of a buffer list are given back. -/
def drain (store : CellStore) (ptr : ℕ) : CellStore where
  free := Runtime.releaseCells store.free (store.held ptr)
  held := update store.held ptr []

end CellStore

namespace Runtime

variable {σ τ : Type} {rt rt' : Runtime σ τ} {ptr : ℕ} {base : Runtime σ τ}

def store (rt : Runtime σ τ) : CellStore where
  free := rt.collectiveBuffer
  held := fun ptr ↦ (rt.actors ptr).buffer

/-- The packets that have left a runtime through `gb_` or the collector. -/
def handedOver (rt : Runtime σ τ) : ℕ := rt.gb.length + rt.gpCollector.length

theorem Inert.store_eq (h : rt.Inert rt') : rt'.store = rt.store := CellStore.ext h.cells (funext h.buffer)

theorem store_modifyActor (rt : Runtime σ τ) (ptr : ℕ) (change : FlowActor → FlowActor) :
    (rt.modifyActor ptr change).store =
      { rt.store with held := update rt.store.held ptr (change (rt.actors ptr)).buffer } := by
  refine CellStore.ext rfl (funext fun other ↦ ?_)
  change ((rt.modifyActor ptr change).actors other).buffer = update rt.store.held ptr _ other
  by_cases heq : other = ptr
  · rw [heq, actors_modifyActor, update_self]
  · rw [actors_modifyActor_of_ne rt change heq, update_of_ne heq]
    rfl

theorem store_modifyActor_same {change : FlowActor → FlowActor}
    (hbuffer : (change (rt.actors ptr)).buffer = (rt.actors ptr).buffer) :
    (rt.modifyActor ptr change).store = rt.store := by
  rw [store_modifyActor, hbuffer]
  exact CellStore.ext rfl (update_eq_self ptr rt.store.held)

variable {states : ℕ → σ} {pkt : Packet} {env : Environment σ} {input : Input σ}

theorem store_opened (rt : Runtime σ τ) (opening : Opening) :
    (rt.opened opening).store = rt.store.clear opening.ptr :=
  store_modifyActor rt opening.ptr fun _ ↦ rt.openedActor opening

theorem handedOver_removed (rt : Runtime σ τ) (ptr : ℕ) : (rt.removed ptr).handedOver = rt.handedOver := by
  unfold removed
  dsimp only
  split <;> rfl

theorem repFsPktMsg_store (h : rt.repFsPktMsg ptr states pkt = some rt') : rt'.store = rt.store := by
  obtain ⟨-, rfl⟩ | ⟨-, rfl⟩ := repFsPktMsg_cases h
  · rfl
  · exact store_modifyActor_same rfl

theorem store_ran (rt : Runtime σ τ) (ptr : ℕ) (pkt : Packet) : (rt.ran ptr pkt).store = rt.store :=
  store_modifyActor_same rfl

/-- A packet takes a free cell if its actor is a migration target. -/
theorem pktMsg_store (h : rt.pktMsg env ptr pkt = some rt') :
    rt'.store = rt.store ∨ (rt.actors ptr).currentState = .migrationTarget ∧ ∃ cell ring,
      rt.collectiveBuffer.pop = some (cell, ring) ∧ rt'.store = rt.store.keep ptr cell ring pkt := by
  have hcounted : (rt.counted ptr).store = rt.store := store_modifyActor_same rfl
  cases pktMsg_takes h with
  | full => exact .inl hcounted
  | keep cell ring hstate hpop =>
    refine .inr ⟨hstate, cell, ring, hpop, ?_⟩
    rw [← hcounted, store_modifyActor]
    rfl
  | late => exact .inl rfl
  | emit | replicate => exact .inl (store_ran rt ptr pkt)
  | disconnect => exact .inl ((store_modifyActor_same rfl).trans (store_ran rt ptr pkt))

/-- All packets of the list are handed over and their cells given back. -/
theorem replayBuffer_store (buffer : List (ℕ × Packet)) (h : rt.replayBuffer ptr buffer = some rt') :
    rt'.store = { rt.store with free := releaseCells rt.store.free buffer }.clear ptr ∧
      rt'.handedOver = rt.handedOver + buffer.length := by
  induction buffer generalizing rt with
  | nil =>
    rw [← Option.some.inj h, store_modifyActor]
    exact ⟨rfl, rfl⟩
  | cons cell _ ih =>
    obtain ⟨mid, hmid, hrest⟩ := bind_eq_some_iff.1 h
    obtain ⟨_, _, hhanded, rfl⟩ := replayPacket_eq hmid
    obtain ⟨hstore', hhanded'⟩ := ih hrest
    refine ⟨hstore'.trans ?_, ?_⟩
    · rw [← store_ran rt ptr cell.2]
      rfl
    · rw [hhanded', List.length_cons]
      simp only [handedOver] at hhanded ⊢
      omega

theorem store_drained (hstate : (rt.actors ptr).currentState = .migrationTarget) :
    (rt.drained ptr).store = rt.store.drain ptr ∧
      (rt.drained ptr).handedOver = rt.handedOver + (rt.actors ptr).buffer.length := by
  have hidle := Inert.invalidate rt ptr .idle
  rw [drained, if_pos hstate, discardBuffer]
  constructor
  · rw [store_modifyActor, ← hidle.store_eq]
    rfl
  · rw [← hidle.buffer ptr]
    simp only [handedOver, modifyActor, List.length_append, List.length_map]
    exact (Nat.add_assoc _ _ _).symm

/-- The moves of the cells. A step at which none moves brings no flow state and removes no idle target. -/
inductive Moves (rt : Runtime σ τ) : Input σ → Runtime σ τ → Prop
  | still (input : Input σ) (rt' : Runtime σ τ) : (∀ ptr, ¬rt.ledger.ArrivesAt ptr input) →
      (∀ env ptr kind, input = .fire env ptr kind → (rt.actors ptr).currentState = .migrationTarget →
        rt'.allocator = rt.allocator) → rt'.store = rt.store → Moves rt input rt'
  | kept (env : Environment σ) (pkt : Packet) (rt' : Runtime σ τ) (ptr cell : ℕ) (ring : RingBuffer ℕ) :
      rt.htable (flowKeyOf pkt) = some ptr → (rt.actors ptr).currentState = .migrationTarget →
      rt.collectiveBuffer.pop = some (cell, ring) → rt'.store = rt.store.keep ptr cell ring pkt →
      Moves rt (.packet env pkt) rt'
  | started (input : Input σ) (rt' : Runtime σ τ) (ptr : ℕ) (ring : RingBuffer ℕ) :
      (∀ ptr, ¬rt.ledger.ArrivesAt ptr input) → (∀ env ptr kind, input ≠ .fire env ptr kind) →
      rt.allocator.pop = some (ptr, ring) → rt'.store = rt.store.clear ptr → Moves rt input rt'
  | replayed (env : Environment σ) (senderRtid : UInt32) (message : Message σ) (rt' : Runtime σ τ)
      (ptr : ℕ) : rt.ledger.ArrivesAt ptr (.message env senderRtid message) →
      rt'.store = rt.store.drain ptr →
      rt'.handedOver = rt.handedOver + (rt.actors ptr).buffer.length →
      Moves rt (.message env senderRtid message) rt'
  | discarded (env : Environment σ) (ptr : ℕ) (kind : TimerKind) (rt' : Runtime σ τ) :
      (rt.actors ptr).currentState = .migrationTarget → rt'.store = rt.store.drain ptr →
      rt'.handedOver = rt.handedOver + (rt.actors ptr).buffer.length →
      Moves rt (.fire env ptr kind) rt'

theorem Rests.not_arrives (h : rt.Rests input) (ptr : ℕ) : ¬rt.ledger.ArrivesAt ptr input := by
  intro harrives
  cases h with
  | pong _ _ _ hrecv => exact harrives.1.1 hrecv
  | refused _ _ _ _ _ _ hrecv => exact harrives.1.1 hrecv
  | unknown _ _ _ _ hnone => cases hnone.symm.trans harrives.1.2.1
  | stale _ _ _ _ _ _ _ _ hrequest =>
    obtain ⟨-, states, hbody⟩ := harrives
    simp [hbody, MessageBody.request] at hrequest
  | noMigration | noRecovery => exact harrives

theorem Prepares.not_arrives {sent : Bool} {request : Request σ} (h : rt.Prepares input base sent ptr request)
    (other : ℕ) : ¬rt.ledger.ArrivesAt other input := by
  intro harrives
  cases h with
  | forward _ _ _ _ _ _ _ hbody | ship _ _ _ _ _ _ hbody | stay _ _ _ _ _ _ _ hbody =>
    simp [Ledger.ArrivesAt, hbody] at harrives
  | _ => exact harrives

theorem Abandons.not_arrives (h : rt.Abandons input base ptr) (other : ℕ) :
    ¬rt.ledger.ArrivesAt other input := by
  intro harrives
  cases h with
  | response _ _ _ _ _ _ hbody => simp [Ledger.ArrivesAt, hbody] at harrives
  | _ => exact harrives

theorem Opens.moves {opening : Opening} (hgrants : rt.Grants opening) (h : rt.Opens input opening rt') :
    rt.Moves input rt' := by
  have hopened := store_opened rt opening
  cases h with
  | packet env pkt ptr ring _ _ _ _ _ _ _ hpkt =>
    refine .started _ _ ptr ring (fun _ ↦ id) (by simp) hgrants.1 ?_
    rcases pktMsg_store hpkt with hstore | ⟨hstate, -⟩
    · exact hstore.trans hopened
    · have hnormal := congrArg FlowActor.currentState (actors_opened rt _) |>.symm.trans hstate
      exact absurd hnormal (by simp [openedActor, packetOpening])
  | target _ _ _ _ _ _ ptr ring _ _ hrecv =>
    exact .started _ _ ptr ring (fun _ harrives ↦ harrives.1.1 hrecv) (by simp) hgrants.1 hopened
  | replica _ _ _ _ _ _ _ _ ptr ring _ _ _ hrecv _ _ _ hrep =>
    exact .started _ _ ptr ring (fun _ harrives ↦ harrives.1.1 hrecv) (by simp) hgrants.1
      ((repFsPktMsg_store hrep).trans hopened)

theorem store_enter (rt : Runtime σ τ) (ptr : ℕ) (state : FlowState) : (rt.enter ptr state).store = rt.store :=
  store_modifyActor_same rfl

/-- Every step moves the cells in one of the listed ways. -/
theorem step_moves {input : Input σ} (hblank : rt.ledger.DeadendBlank) (h : rt.step input = some rt') :
    rt.Moves input rt' := by
  have hstill (hnone : ∀ ptr, ¬rt.ledger.ArrivesAt ptr input) (hinert : rt.Inert rt') : rt.Moves input rt' :=
    .still _ _ hnone (fun _ _ _ _ _ ↦ hinert.allocator) hinert.store_eq
  have hactive (ptr : ℕ) : ((rt.invalidate ptr .replication).modifyActor ptr fun actor ↦
      { actor with replicationState := .noReplica }).store = rt.store :=
    (store_modifyActor_same rfl).trans (Inert.invalidate rt ptr .replication).store_eq
  cases step_outcome h with
  | rest _ hrests => exact hstill hrests.not_arrives (.refl rt)
  | tally _ _ htallies =>
    exact hstill (fun _ harrives ↦ by cases htallies <;> exact harrives) htallies.inert
  | abandon _ _ _ habandons => exact hstill habandons.not_arrives habandons.inert
  | ask _ base sent ptr request hprepares =>
    have hasked : (base.ask sent ptr request).store = base.store :=
      (Inert.setTimer _ ptr _ _).store_eq.trans rfl
    exact .still _ _ hprepares.not_arrives (fun _ _ _ _ _ ↦ hprepares.inert.allocator)
      (hasked.trans hprepares.inert.store_eq)
  | newFlow _ _ _ hgrants hopens => exact hopens.moves hgrants
  | packet env pkt ptr _ hptr hpkt =>
    rcases pktMsg_store hpkt with hstore | ⟨hstate, cell, ring, hpop, hstore⟩
    · exact .still _ _ (fun _ ↦ id) (by simp) hstore
    · exact .kept env pkt rt' ptr cell ring hptr hstate hpop hstore
  | unserved env pkt _ _ _ hpkt =>
    have hblank' : (rt.bind (flowKeyOf pkt) deadendFlowActor).ledger.DeadendBlank := hblank
    exact absurd ((pktMsg_deadend hblank' env pkt).symm.trans hpkt) (by simp)
  | ping _ _ _ _ hrecv => exact .still _ _ (fun _ harrives ↦ harrives.1.1 hrecv) (by simp) rfl
  | route _ _ _ _ _ _ _ _ hrecv _ hupdated =>
    exact .still _ _ (fun _ harrives ↦ harrives.1.1 hrecv) (by simp) (Inert.updateRoute hupdated).store_eq
  | mirror _ _ _ _ _ _ _ _ _ _ hrecv _ _ hrep =>
    exact .still _ _ (fun _ harrives ↦ harrives.1.1 hrecv) (by simp) (repFsPktMsg_store hrep)
  | bindDeadend _ _ _ _ _ _ _ _ _ hrecv _ _ _ hrep =>
    have hstore := repFsPktMsg_store hrep
    exact .still _ _ (fun _ harrives ↦ harrives.1.1 hrecv) (by simp) hstore
  | arrive env senderRtid message ptr states sent _ hdelivers hbody hreplay =>
    have hready : (rt.arriving sent ptr senderRtid message states).store = rt.store :=
      store_enter rt ptr .normalProcessing
    obtain ⟨hstore, hhanded⟩ := replayBuffer_store _ hreplay
    rw [hready] at hstore
    exact .replayed env senderRtid message rt' ptr ⟨hdelivers, states, hbody⟩ hstore hhanded
  | complete _ _ _ ptr _ hbody =>
    have hsettled : (rt.settled ptr).store = (rt.invalidate ptr .migration).store :=
      (Inert.invalidate _ ptr .idle).store_eq.trans (store_enter (rt.invalidate ptr .migration) ptr _)
    refine .still _ _ (fun _ harrives ↦ by simp [Ledger.ArrivesAt, hbody] at harrives) (by simp) ?_
    exact (Inert.removed _ ptr).store_eq.trans (hsettled.trans (Inert.invalidate rt ptr .migration).store_eq)
  | recovered _ _ _ ptr _ _ hbody =>
    exact .still _ _ (fun _ harrives ↦ by simp [Ledger.ArrivesAt, hbody] at harrives) (by simp) (hactive ptr)
  | notRecovered _ ptr => exact .still _ _ (fun _ ↦ id) (fun _ _ _ _ _ ↦ rfl) (hactive ptr)
  | idleAgain _ ptr =>
    exact hstill (fun _ ↦ id) ((Inert.invalidate rt ptr .idle).trans (.modifyActor _ ptr rfl rfl rfl))
  | leave env ptr kind =>
    have hstore : ((rt.left ptr).removed ptr).store = (rt.drained ptr).store := (Inert.removed _ ptr).store_eq
    by_cases hstate : (rt.actors ptr).currentState = .migrationTarget
    · obtain ⟨hdrained, hhanded⟩ := store_drained hstate
      exact .discarded env ptr kind _ hstate (hstore.trans hdrained) ((handedOver_removed _ ptr).trans hhanded)
    · refine .still _ _ (fun _ ↦ id) (fun _ other _ hinput htarget ↦ ?_) (hstore.trans ?_)
      · injection hinput with _ hptr
        exact absurd (hptr ▸ htarget) hstate
      · rw [drained, if_neg hstate]
        exact (Inert.invalidate rt ptr .idle).store_eq

end Runtime

namespace Ledger

variable {σ : Type} {ledger ledger' : Ledger} {ptr : ℕ}

/-- A live migration target. -/
def Target (ledger : Ledger) (ptr : ℕ) : Prop :=
  ledger.Live ptr ∧ (ledger.cards ptr).currentState = .migrationTarget

theorem Target.of_ne {other : ℕ} (h : ledger.Target ptr) (halters : ledger.Alters ledger' other)
    (hne : ptr ≠ other) : ledger'.Target ptr := by
  rw [Target, halters.live ptr hne, halters.cards ptr hne]
  exact h

/-- A target stays one unless its flow state arrives, it is picked to migrate, a request of it is answered, or
it is removed as idle. -/
theorem Target.effect (h : ledger.Target ptr) (hsound : ledger.Sound) {input : Input σ}
    (heffect : ledger.Effect input ledger') (harrives : ¬ledger.ArrivesAt ptr input)
    (hdeparts : ¬ledger.Departs ptr input) (hanswers : ¬ledger.Answers input ptr .migration)
    (hstays : ∀ env kind, input = .fire env ptr kind → ledger'.allocator = ledger.allocator) :
    ledger'.Target ptr := by
  cases heffect.shift hsound with
  | turn other card halters hallocator hcard hturn =>
    by_cases heq : ptr = other
    · subst heq
      rw [Target, Live, hallocator, hcard]
      cases hturn with
      | refuse hdepart => exact absurd hdepart hdeparts
      | depart _ hdepart => exact absurd hdepart hdeparts
      | abandon hanswered | request _ _ hanswered => exact absurd hanswered hanswers
      | arrive harrived => exact absurd harrived harrives
      | _ => exact h
    · exact h.of_ne halters heq
  | enroll other _ _ _ hadmitted => exact h.of_ne hadmitted.alters fun heq ↦ hadmitted.free (heq ▸ h.1)
  | dismiss other hdismissed =>
    refine h.of_ne hdismissed.alters ?_
    rintro rfl
    cases hdismissed.dismisses with
    | idle env _ kind =>
      refine hdismissed.gone ?_
      rw [Live, hstays env kind rfl]
      exact h.1
    | migrated env senderRtid message _ hdelivers hbody =>
      exact hanswers (.response env senderRtid message ptr .migration hdelivers (by rw [hbody]; rfl))

end Ledger

/-! ## The invariant -/

/-- The states in which a migration timer may be armed. -/
def FlowState.notTarget (state : FlowState) : Bool := decide (state ≠ .migrationTarget)

namespace Runtime

variable {σ τ : Type} {rt rt' : Runtime σ τ}

/-- Responses name a request, and the actor that `coordinator_mp` picks is live and no target with buffered
packets. -/
structure StrandsNone (rt : Runtime σ τ) (input : Input σ) : Prop where
  named : Ledger.RepliesNamed input
  departs : ∀ ptr, rt.ledger.Departs ptr input → rt.Allocated ptr ∧
    ((rt.actors ptr).currentState = .migrationTarget → (rt.actors ptr).buffer = [])

/-- Every cell is free or in the buffer of one live migration target. -/
structure CellsKept (rt : Runtime σ τ) : Prop where
  size : rt.store.free.maxSize = collectiveBufferSize
  owned : rt.store.free.Owned rt.store.held
  target : ∀ ptr, rt.store.held ptr ≠ [] → rt.ledger.Target ptr
  armed : rt.ledger.ArmedIn FlowState.notTarget

namespace CellsKept

theorem maxSize_releaseCells (ring : RingBuffer ℕ) (buffer : List (ℕ × Packet)) :
    (releaseCells ring buffer).maxSize = ring.maxSize := by
  induction buffer generalizing ring with
  | nil => rfl
  | cons cell _ ih => exact (ih _).trans (ring.maxSize_push cell.1)

variable {input : Input σ} {ptr : ℕ} {ring : RingBuffer ℕ}

variable (h : rt.CellsKept) (hsound : rt.ledger.Sound)

include h hsound

/-- Targets with buffered packets stay targets unless their buffers are emptied. -/
theorem target_stays {ledger' : Ledger} (hguard : rt.StrandsNone input)
    (heffect : rt.ledger.Effect input ledger') (hheld : rt.store.held ptr ≠ [])
    (harrives : ¬rt.ledger.ArrivesAt ptr input)
    (hstays : ∀ env kind, input = .fire env ptr kind → ledger'.allocator = rt.ledger.allocator) :
    ledger'.Target ptr := by
  have htarget := h.target ptr hheld
  refine htarget.effect hsound heffect harrives ?_ ?_ hstays
  · exact fun hdeparts ↦ hheld ((hguard.departs ptr hdeparts).2 htarget.2)
  · intro hanswers
    have hstate := (h.armed ptr (Ledger.armed_of_answers hsound hguard.named hanswers)).2
    rw [htarget.2] at hstate
    exact absurd hstate (by decide)

theorem armed_step {ledger' : Ledger} (hguard : rt.StrandsNone input) (heffect : rt.ledger.Effect input ledger') :
    ledger'.ArmedIn FlowState.notTarget := by
  refine h.armed.effect hsound ?_ hguard.named (fun _ _ _ ↦ rfl) ?_ heffect
  · intro state hmigrating
    cases state <;> first | rfl | exact absurd hmigrating (by decide)
  · exact fun ptr hdeparts ↦ ⟨(hguard.departs ptr hdeparts).1, fun _ ↦ rfl⟩

theorem held_popped (hpop : rt.allocator.pop = some (ptr, ring)) : rt.store.held ptr = [] := by
  by_contra hheld
  exact (hsound.pool.pop hpop).2.1 (h.target ptr hheld).1

theorem clear_popped (hpop : rt.allocator.pop = some (ptr, ring)) : rt.store.clear ptr = rt.store := by
  refine CellStore.ext rfl ?_
  change update rt.store.held ptr [] = rt.store.held
  rw [← h.held_popped hsound hpop, update_eq_self]

omit hsound

theorem of_drain (hstore : rt'.store = rt.store.drain ptr) (harmed : rt'.ledger.ArmedIn FlowState.notTarget)
    (hothers : ∀ other, other ≠ ptr → rt.store.held other ≠ [] → rt'.ledger.Target other) : rt'.CellsKept where
  size := by
    rw [hstore]
    exact (maxSize_releaseCells _ _).trans h.size
  owned := by
    rw [hstore]
    exact h.owned.giveBackAll ptr
  target := by
    intro other hheld
    rw [hstore] at hheld
    change update rt.store.held ptr [] other ≠ [] at hheld
    by_cases heq : other = ptr
    · rw [heq, update_self] at hheld
      exact absurd rfl hheld
    · rw [update_of_ne heq] at hheld
      exact hothers other heq hheld
  armed := harmed

theorem step (hsound : rt.ledger.Sound) (hguard : rt.StrandsNone input) (hstep : rt.step input = some rt') :
    rt'.CellsKept := by
  have heffect := step_effect hsound.blank input hstep
  have harmed := h.armed_step hsound hguard heffect
  have hmoves := step_moves hsound.blank hstep
  cases hmoves with
  | still _ _ hnone hstays hstore =>
    refine ⟨by rw [hstore]; exact h.size, by rw [hstore]; exact h.owned, fun ptr hheld ↦ ?_, harmed⟩
    rw [hstore] at hheld
    exact h.target_stays hsound hguard heffect hheld (hnone ptr)
      fun env kind hinput ↦ hstays env ptr kind hinput (h.target ptr hheld).2
  | kept _ pkt _ ptr _ _ hptr hstate hpop hstore =>
    refine ⟨?_, ?_, fun other hheld ↦ ?_, harmed⟩
    · rw [hstore]
      exact (RingBuffer.contents_pop hpop).2.trans h.size
    · rw [hstore]
      exact h.owned.take hpop pkt
    · by_cases heq : other = ptr
      · have htarget : rt.ledger.Target ptr := ⟨hsound.flow_live _ _ hptr, hstate⟩
        rw [heq]
        refine htarget.effect hsound heffect id id ?_ (by simp)
        intro hanswers
        cases hanswers
      · rw [hstore] at hheld
        change update rt.store.held ptr _ other ≠ [] at hheld
        rw [update_of_ne heq] at hheld
        exact h.target_stays hsound hguard heffect hheld id (by simp)
  | started _ _ _ _ hnone hfire hpop hstore =>
    rw [h.clear_popped hsound hpop] at hstore
    refine ⟨by rw [hstore]; exact h.size, by rw [hstore]; exact h.owned, fun other hheld ↦ ?_, harmed⟩
    rw [hstore] at hheld
    exact h.target_stays hsound hguard heffect hheld (hnone other)
      fun env kind hinput ↦ absurd hinput (hfire env other kind)
  | replayed _ _ _ _ _ harrives hstore =>
    refine h.of_drain hstore harmed fun other hne hheld ↦ ?_
    refine h.target_stays hsound hguard heffect hheld ?_ (by simp)
    intro harrives'
    exact hne (Option.some.inj (harrives'.1.2.1.symm.trans harrives.1.2.1))
  | discarded _ _ _ _ _ hstore =>
    refine h.of_drain hstore harmed fun other hne hheld ↦ ?_
    refine h.target_stays hsound hguard heffect hheld id fun env' kind' hinput ↦ ?_
    injection hinput with _ hptr
    exact absurd hptr.symm hne

omit h

theorem boot (config : RuntimeConfig) (serviceChain : List ℕ) (code : ℕ → NetworkFunction σ τ) (zero : ℕ → σ)
    (sharedState : ℕ → τ) : (Runtime.boot config serviceChain code zero sharedState).CellsKept := by
  have hheld : (Runtime.boot config serviceChain code zero sharedState).store.held = fun _ ↦ [] := by
    funext ptr
    simp only [store, Runtime.boot, update_apply]
    split <;> rfl
  refine ⟨rfl, ?_, fun ptr hne ↦ absurd (congrFun hheld ptr) hne, fun ptr harmed ↦ ?_⟩
  · rw [hheld]
    exact .filled collectiveBufferSize (by decide)
  · exact absurd harmed ((blank_boot config serviceChain code zero sharedState ptr).timers .migration)

end CellsKept

theorem cellsKept_of_reachable (hreach : (system σ τ).Reachable StrandsNone rt) : rt.CellsKept := by
  have hboth : rt.ledger.Sound ∧ rt.CellsKept := by
    apply @TransitionSystem.Reachable.invariant _ _ _ _ (fun rt ↦ rt.ledger.Sound ∧ rt.CellsKept) _ hreach
    · rintro _ ⟨config, serviceChain, code, zero, sharedState, rfl⟩
      exact ⟨sound_boot config serviceChain code zero sharedState, .boot ..⟩
    · intro rt input rt' hboth hguard hstep
      exact ⟨hboth.1.effect (step_effect hboth.1.blank input hstep), hboth.2.step hboth.1 hguard hstep⟩
  exact hboth.2

/-- The numbers of the cells in the buffer list of an actor. -/
def bufferedCells (rt : Runtime σ τ) (ptr : ℕ) : List ℕ := (rt.actors ptr).buffer.map Prod.fst

/-- Every cell is in the free ring or in one buffer list, once. Only migration targets have buffered packets,
and the actor that is handed out next has none. -/
structure BuffersAccounted (rt : Runtime σ τ) : Prop where
  free : rt.collectiveBuffer.contents.Nodup
  listed : ∀ ptr, (rt.bufferedCells ptr).Nodup
  cells : ∀ cell < collectiveBufferSize,
    (cell ∈ rt.collectiveBuffer.contents ∧ ∀ ptr, cell ∉ rt.bufferedCells ptr) ∨
      (cell ∉ rt.collectiveBuffer.contents ∧ ∃! ptr, cell ∈ rt.bufferedCells ptr)
  target : ∀ ptr, (rt.actors ptr).buffer ≠ [] → (rt.actors ptr).currentState = .migrationTarget
  started : ∀ ptr ring, rt.allocator.pop = some (ptr, ring) → (rt.actors ptr).buffer = []

/-- The buffered packets of an actor stay, or all are handed over: in a replay or in the idle check. -/
def BufferSettles (rt : Runtime σ τ) (input : Input σ) (rt' : Runtime σ τ) (ptr : ℕ) : Prop :=
  (rt.actors ptr).buffer <+: (rt'.actors ptr).buffer ∨
    (rt.ledger.ArrivesAt ptr input ∨ ∃ env kind, input = .fire env ptr kind) ∧
      (rt'.actors ptr).buffer = [] ∧ rt'.handedOver = rt.handedOver + (rt.actors ptr).buffer.length

theorem CellsKept.accounted (h : rt.CellsKept) (hsound : rt.ledger.Sound) : rt.BuffersAccounted where
  free := h.owned.pool.nodup
  listed := h.owned.nodup
  cells := by
    intro cell hcell
    by_cases hfree : cell ∈ rt.collectiveBuffer.contents
    · refine .inl ⟨hfree, fun ptr hmem ↦ ?_⟩
      exact (RingBuffer.mem_outstanding.1 ((h.owned.outstanding cell).2 ⟨ptr, hmem⟩)).2 hfree
    · obtain ⟨ptr, hmem⟩ := (h.owned.outstanding cell).1
        (RingBuffer.mem_outstanding.2 ⟨h.size.symm ▸ hcell, hfree⟩)
      exact .inr ⟨hfree, ptr, hmem, fun other hother ↦ h.owned.unique cell other ptr hother hmem⟩
  target := fun ptr hheld ↦ (h.target ptr hheld).2
  started := fun _ _ hpop ↦ h.held_popped hsound hpop

theorem CellsKept.settles (h : rt.CellsKept) (hsound : rt.ledger.Sound) {input : Input σ}
    (hstep : rt.step input = some rt') (ptr : ℕ) : rt.BufferSettles input rt' ptr := by
  have hsame : rt'.store.held ptr = rt.store.held ptr → rt.BufferSettles input rt' ptr := by
    intro hheld
    exact .inl (hheld ▸ List.prefix_rfl : rt.store.held ptr <+: rt'.store.held ptr)
  have hdrain : ∀ other, rt'.store = rt.store.drain other → other ≠ ptr →
      rt'.store.held ptr = rt.store.held ptr := by
    intro other hstore hne
    rw [hstore]
    exact update_of_ne hne.symm _ _
  have hmoves := step_moves hsound.blank hstep
  cases hmoves with
  | still _ _ _ _ hstore => exact hsame (by rw [hstore])
  | kept _ pkt _ other cell _ _ _ _ hstore =>
    by_cases heq : ptr = other
    · left
      have hheld : rt'.store.held ptr = rt.store.held ptr ++ [(cell, pkt)] := by
        rw [hstore, heq]
        exact update_self _ _ _
      exact ⟨_, hheld.symm⟩
    · refine hsame ?_
      rw [hstore]
      exact update_of_ne heq _ _
  | started _ _ _ _ _ _ hpop hstore => exact hsame (by rw [hstore, h.clear_popped hsound hpop])
  | replayed _ _ _ _ other harrives hstore hhanded =>
    by_cases heq : other = ptr
    · subst heq
      have hheld : rt'.store.held other = [] := by
        rw [hstore]
        exact update_self _ _ _
      exact .inr ⟨.inl harrives, hheld, hhanded⟩
    · exact hsame (hdrain other hstore heq)
  | discarded env other kind _ _ hstore hhanded =>
    by_cases heq : other = ptr
    · subst heq
      have hheld : rt'.store.held other = [] := by
        rw [hstore]
        exact update_self _ _ _
      exact .inr ⟨.inr ⟨env, kind, rfl⟩, hheld, hhanded⟩
    · exact hsame (hdrain other hstore heq)

/-- In every run that strands no buffer the cells are accounted for, and buffered packets stay until they are
handed over. -/
theorem buffers_accounted (hreach : (system σ τ).Reachable StrandsNone rt) :
    rt.BuffersAccounted ∧ ∀ (input : Input σ) (rt' : Runtime σ τ), (system σ τ).step rt input = some rt' →
      ∀ ptr, rt.BufferSettles input rt' ptr := by
  have hsound := sound_of_reachable hreach
  have hkept := cellsKept_of_reachable hreach
  exact ⟨hkept.accounted hsound, fun _ _ hstep ptr ↦ hkept.settles hsound hstep ptr⟩

/-- A target with one buffered packet. -/
theorem buffers_accounted_bufferedPacket : ∃ rt : Runtime Unit Unit,
    (system Unit Unit).run (smallBoot []) [createTarget, .packet connected (tcpPacket 7)] = some rt ∧
      (rt.actors 1).buffer.length = 1 ∧ rt.BuffersAccounted := by
  obtain ⟨rt, hsteps, hlength⟩ : ∃ rt ∈ (system Unit Unit).run (smallBoot [])
      [createTarget, .packet connected (tcpPacket 7)], (rt.actors 1).buffer.length = 1 := by decide +kernel
  refine ⟨rt, hsteps, hlength, (buffers_accounted ?_).1⟩
  refine TransitionSystem.reachable_run _ (.start (init_smallBoot [])) ?_ hsteps
  intro input hinput rt
  simp only [List.mem_cons, List.not_mem_nil, or_false] at hinput
  rcases hinput with rfl | rfl
  · exact ⟨fun _ _ hrequest ↦ absurd hrequest (by simp [MessageBody.request]), fun _ ↦ False.elim⟩
  · exact ⟨trivial, fun _ ↦ False.elim⟩

/-- `coordinator_mp` picks a migration target with a buffered packet. -/
theorem buffer_stranded_in_migration : ∃ rt : Runtime Unit Unit,
    (system Unit Unit).Reachable TransitionSystem.anyStep rt ∧
      (rt.actors 1).currentState = .migrationSource ∧ (rt.actors 1).buffer.length = 1 ∧
      ¬rt.BuffersAccounted := by
  obtain ⟨rt, hsteps, hstate, hlength⟩ : ∃ rt ∈ (system Unit Unit).run (smallBoot [])
      [createTarget, .packet connected (tcpPacket 7), .migrateTo 1 2, .migrationIteration connected],
      (rt.actors 1).currentState = .migrationSource ∧ (rt.actors 1).buffer.length = 1 := by decide +kernel
  refine ⟨rt, .replay (init_smallBoot []) hsteps, hstate, hlength, fun haccounted ↦ ?_⟩
  have htarget := haccounted.target 1 (List.ne_nil_of_length_pos (by omega))
  rw [hstate] at htarget
  cases htarget

end Runtime

end NfvActor.Actor
