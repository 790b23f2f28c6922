import Mathlib.Tactic
import NfvActor.Actor.Custody
import NfvActor.Actor.FlowTables

/-!
# Custody of flow-state slots

Every network function has as many flow-state slots as there are flow actors. What the ring holds and what the
live actors hold together are all the slots, as multisets. `migrate_flow_state_response_t` removes an actor
without giving its slots back.
-/

namespace NfvActor.Actor

open NfvActor.Foundation
open NfvActor.Actor.Runtime (deadendFlowActor)
open Function

/-- The slots of one network function in a chain. -/
def slotsOf (nf : ℕ) (chain : List ChainSlot) : Multiset ℕ :=
  ((chain.filter fun position ↦ position.nf = nf).map ChainSlot.slot : List ℕ)

variable (nf : ℕ)

@[simp]
theorem slotsOf_nil : slotsOf nf [] = 0 := rfl

theorem slotsOf_cons (position : ChainSlot) (chain : List ChainSlot) :
    slotsOf nf (position :: chain) = (if position.nf = nf then {position.slot} else 0) + slotsOf nf chain := by
  by_cases hnf : position.nf = nf
  · simp only [slotsOf, List.filter_cons, hnf, decide_true, if_true, List.map_cons]
    rfl
  · simp [slotsOf, hnf]

theorem slotsOf_append (chain chain' : List ChainSlot) :
    slotsOf nf (chain ++ chain') = slotsOf nf chain + slotsOf nf chain' := by
  simp [slotsOf]

theorem count_slotsOf (nf slot : ℕ) (chain : List ChainSlot) :
    (slotsOf nf chain).count slot = chain.count ⟨nf, slot⟩ := by
  induction chain with
  | nil => rfl
  | cons position _ ih =>
    rw [slotsOf_cons, Multiset.count_add, ih, List.count_cons, add_comm]
    congr 1
    obtain ⟨nf', slot'⟩ := position
    by_cases hnf : nf' = nf
    · by_cases hslot : slot = slot'
      · simp [hnf, hslot]
      · simp [hnf, hslot, Ne.symm hslot]
    · simp [hnf]

theorem card_slotsOf (chain : List ChainSlot) :
    (slotsOf nf chain).card = (chain.map ChainSlot.nf).count nf := by
  induction chain with
  | nil => rfl
  | cons position _ ih =>
    rw [slotsOf_cons, Multiset.card_add, ih, List.map_cons, List.count_cons, add_comm]
    congr 1
    by_cases hnf : position.nf = nf <;> simp [hnf]

namespace FreeSlots

/-- The rings have room for the slots of a chain. -/
def Room (free : FreeSlots) (chain : List ChainSlot) : Prop :=
  ∀ nf, (free nf).curSize + (slotsOf nf chain).card ≤ (free nf).maxSize

variable (serviceChain : List ℕ) (taken : List ChainSlot) (free : FreeSlots)

theorem release_spec (chain : List ChainSlot) (hroom : free.Room chain) (nf : ℕ) :
    ((free.release chain nf).contents : Multiset ℕ) = (free nf).contents + slotsOf nf chain ∧
      (free.release chain nf).maxSize = (free nf).maxSize := by
  induction chain generalizing free with
  | nil => simp [release]
  | cons position chain ih =>
    have hspace : (free position.nf).curSize < (free position.nf).maxSize := by
      have hle := hroom position.nf
      rw [slotsOf_cons, if_pos rfl, Multiset.card_add, Multiset.card_singleton] at hle
      omega
    have hcontents := (RingBuffer.contents_push position.slot hspace).2
    have hsize := congrArg List.length hcontents
    rw [RingBuffer.length_contents, List.length_append, RingBuffer.length_contents,
      List.length_singleton] at hsize
    have hnext : FreeSlots.Room (update free position.nf ((free position.nf).push position.slot).2) chain := by
      intro other
      have hle := hroom other
      rw [slotsOf_cons, Multiset.card_add] at hle
      by_cases hother : position.nf = other
      · subst hother
        rw [if_pos rfl, Multiset.card_singleton] at hle
        rw [update_self, hsize, RingBuffer.maxSize_push]
        omega
      · rw [update_of_ne (Ne.symm hother)]
        omega
    have hrest := ih (update free position.nf ((free position.nf).push position.slot).2) hnext
    change ((release (update free position.nf
      ((free position.nf).push position.slot).2) chain nf).contents : Multiset ℕ) = _ ∧ _
    rw [hrest.1, slotsOf_cons]
    refine ⟨?_, hrest.2.trans ?_⟩
    · by_cases hnf : position.nf = nf
      · subst hnf
        rw [update_self, hcontents, if_pos rfl, ← Multiset.coe_add, add_assoc]
        rfl
      · rw [update_of_ne (Ne.symm hnf), if_neg hnf, zero_add]
    · by_cases hnf : position.nf = nf
      · subst hnf
        rw [update_self, RingBuffer.maxSize_push]
      · rw [update_of_ne (Ne.symm hnf)]

/-- Slots move from the rings to the chain, also when a ring is empty in the middle. -/
theorem take_spec (hroom : free.Room taken) (nf : ℕ) :
    (((take serviceChain taken free).2 nf).contents : Multiset ℕ) +
        slotsOf nf (take serviceChain taken free).1 = (free nf).contents + slotsOf nf taken ∧
      ((take serviceChain taken free).2 nf).maxSize = (free nf).maxSize := by
  induction serviceChain generalizing taken free with
  | nil => exact ⟨rfl, rfl⟩
  | cons first _ ih =>
    simp only [take]
    split
    · rw [slotsOf_nil, add_zero]
      exact release_spec free taken hroom nf
    · next slot ring hpop =>
      obtain ⟨hcontents, hmax⟩ := RingBuffer.contents_pop hpop
      have hsize := congrArg List.length hcontents
      rw [RingBuffer.length_contents, List.length_cons, RingBuffer.length_contents] at hsize
      have hnext : FreeSlots.Room (update free first ring) (taken ++ [⟨first, slot⟩]) := by
        intro other
        have hle := hroom other
        rw [slotsOf_append, slotsOf_cons, slotsOf_nil, add_zero, Multiset.card_add]
        by_cases hother : first = other
        · subst hother
          rw [update_self, hmax, if_pos rfl, Multiset.card_singleton]
          omega
        · rw [update_of_ne (Ne.symm hother), if_neg hother, Multiset.card_zero]
          exact hle
      have hrest := ih (taken ++ [⟨first, slot⟩]) (update free first ring) hnext
      rw [hrest.1, slotsOf_append, slotsOf_cons, slotsOf_nil, add_zero]
      refine ⟨?_, hrest.2.trans ?_⟩
      · by_cases hnf : first = nf
        · subst hnf
          rw [update_self, if_pos rfl, hcontents, ← Multiset.cons_coe, ← Multiset.singleton_add]
          abel
        · rw [update_of_ne (Ne.symm hnf), if_neg hnf, add_zero]
      · by_cases hnf : first = nf
        · subst hnf
          rw [update_self, hmax]
        · rw [update_of_ne (Ne.symm hnf)]

/-- An actor gets a slot for every position of the service chain, or none. -/
theorem map_nf_take :
    (take serviceChain taken free).1 = [] ∨
      (take serviceChain taken free).1.map ChainSlot.nf = taken.map ChainSlot.nf ++ serviceChain := by
  induction serviceChain generalizing taken free with
  | nil => exact .inr (by simp [take])
  | cons first _ ih =>
    simp only [take]
    split
    · exact .inl rfl
    · next slot ring hpop =>
      rcases ih (taken ++ [⟨first, slot⟩]) (update free first ring) with hnil | hmap
      · exact .inl hnil
      · exact .inr (by rw [hmap]; simp)

end FreeSlots

namespace Ledger

variable {σ : Type}

/-- Every slot is free, with a live actor or lost, and actors hold whole chains. -/
structure SlotsAccounted (ledger : Ledger) (lost : ℕ → Multiset ℕ) : Prop where
  room : ∀ nf, (ledger.free nf).maxSize = numFlowActors
  balance : ∀ nf, ((ledger.free nf).contents : Multiset ℕ) +
    ∑ ptr ∈ ledger.allocator.outstanding, slotsOf nf (ledger.cards ptr).chain + lost nf =
      Multiset.range numFlowActors
  chains : ∀ ptr, ledger.Live ptr → (ledger.cards ptr).chain = [] ∨
    (ledger.cards ptr).chain.map ChainSlot.nf = ledger.serviceChain

variable {ledger ledger' : Ledger} {input : Input σ}

/-- No actor that owns slots completes a migration in this step. -/
def KeepsSlots (ledger : Ledger) : Input σ → Prop
  | .message _ _ message => ∀ ptr, ledger.Delivers message ptr →
    message.body = .migrateFlowStateResponse (ledger.cards ptr).migrationTimer.requestMsgId →
    (ledger.cards ptr).chain = []
  | _ => True

namespace SlotsAccounted

variable {ledger ledger' : Ledger} {lost : ℕ → Multiset ℕ} {ptr : ℕ}

variable (h : ledger.SlotsAccounted lost)

include h

theorem of_same (hfree : ledger'.free = ledger.free) (hallocator : ledger'.allocator = ledger.allocator)
    (hservice : ledger'.serviceChain = ledger.serviceChain)
    (hchain : ∀ other, (ledger'.cards other).chain = (ledger.cards other).chain) :
    ledger'.SlotsAccounted lost := by
  refine ⟨by rw [hfree]; exact h.room, ?_, ?_⟩
  · intro nf
    simp only [hfree, hallocator, hchain]
    exact h.balance nf
  · intro other hlive
    rw [Live, hallocator] at hlive
    rw [hchain, hservice]
    exact h.chains other hlive

theorem touch (htouch : ledger.Touches ledger' ptr) : ledger'.SlotsAccounted lost := by
  refine h.of_same htouch.free htouch.allocator htouch.serviceChain ?_
  intro other
  by_cases heq : other = ptr
  · rw [heq, htouch.chain]
  · rw [htouch.others other heq]

theorem enroll (hsound : ledger.Sound) {ring : RingBuffer ℕ} {head : ListNode} {key : FlowKey}
    {state : FlowState} {replication : ReplicationState} (hpop : ledger.allocator.pop = some (ptr, ring)) :
    (ledger.enroll ptr ring head key state replication).SlotsAccounted lost := by
  obtain ⟨-, hfresh, houtstanding⟩ := hsound.pool.pop hpop
  have hcards := ledger.cards_enroll ptr ring head key state replication
  have hroom : FreeSlots.Room ledger.free [] := fun nf ↦ (ledger.free nf).size_le
  have htake := FreeSlots.take_spec ledger.serviceChain [] ledger.free hroom
  refine ⟨?_, ?_, ?_⟩
  · intro nf
    exact (htake nf).2.trans (h.room nf)
  · intro nf
    have hsum := sum_insert_update (fun card : Card ↦ slotsOf nf card.chain) ledger.cards
      ledger.allocator.outstanding (ledger.admittedCard ptr key state replication) hfresh
    change (((FreeSlots.take ledger.serviceChain [] ledger.free).2 nf).contents : Multiset ℕ) +
      ∑ other ∈ ring.outstanding,
        slotsOf nf ((ledger.enroll ptr ring head key state replication).cards other).chain + lost nf = _
    rw [houtstanding, hcards, hsum, ← add_assoc]
    change (((FreeSlots.take ledger.serviceChain [] ledger.free).2 nf).contents : Multiset ℕ) +
      slotsOf nf (FreeSlots.take ledger.serviceChain [] ledger.free).1 + _ + lost nf = _
    rw [(htake nf).1, slotsOf_nil, add_zero]
    exact h.balance nf
  · intro other hlive
    by_cases heq : other = ptr
    · rw [heq, hcards, update_self]
      exact FreeSlots.map_nf_take ledger.serviceChain [] ledger.free
    · rw [hcards, update_of_ne heq]
      exact h.chains other (((hsound.live_enroll hpop other).1 hlive).resolve_left heq)

/-- The slots of a live actor fit into the free rings. -/
theorem room_chain (hlive : ledger.Live ptr) : FreeSlots.Room ledger.free (ledger.cards ptr).chain := by
  intro nf
  have hcard := congrArg Multiset.card (h.balance nf)
  rw [← Finset.add_sum_erase _ _ hlive, Multiset.card_add, Multiset.card_add, Multiset.card_add,
    Multiset.coe_card, RingBuffer.length_contents, Multiset.card_range] at hcard
  rw [h.room nf]
  omega

/-- The chains that remain after a live actor has been removed. -/
theorem chains_remove (hsound : ledger.Sound) (hlive : ledger.Live ptr) (hptr : ptr ≠ deadendFlowActor)
    (other : ℕ) (hmem : (ledger.remove ptr).Live other) :
    ((ledger.remove ptr).cards other).chain = [] ∨
      ((ledger.remove ptr).cards other).chain.map ChainSlot.nf = (ledger.remove ptr).serviceChain := by
  obtain ⟨hne, hlive'⟩ := (hsound.live_remove hlive hptr other).1 hmem
  rw [ledger.remove_eq hptr]
  change (update ledger.cards ptr _ other).chain = [] ∨
    (update ledger.cards ptr _ other).chain.map ChainSlot.nf = ledger.serviceChain
  rw [update_of_ne hne]
  exact h.chains other hlive'

/-- Removing an actor after its slots have been given back. -/
theorem expire (hsound : ledger.Sound) (hlive : ledger.Live ptr) (hptr : ptr ≠ deadendFlowActor) :
    ((ledger.release ptr).remove ptr).SlotsAccounted lost := by
  have hrelease := FreeSlots.release_spec ledger.free (ledger.cards ptr).chain (h.room_chain hlive)
  obtain ⟨-, houtstanding, -⟩ := hsound.pool.push hlive
  have heq := (ledger.release ptr).remove_eq hptr
  have hchains := h.chains_remove hsound hlive hptr
  refine ⟨?_, ?_, ?_⟩
  · intro nf
    rw [heq]
    exact (hrelease nf).2.trans (h.room nf)
  · intro nf
    have hsum := sum_erase_update (fun card : Card ↦ slotsOf nf card.chain) ledger.cards
      ledger.allocator.outstanding (removedCard (ledger.cards ptr)) hlive
    rw [heq]
    change ((ledger.free.release (ledger.cards ptr).chain nf).contents : Multiset ℕ) +
      ∑ other ∈ (ledger.allocator.push ptr).2.outstanding, slotsOf nf
        (update ledger.cards ptr (removedCard (ledger.cards ptr)) other).chain + lost nf = _
    rw [houtstanding, (hrelease nf).1, ← h.balance nf, ← hsum]
    abel
  · rw [ledger.remove_eq hptr] at hchains
    rw [heq]
    exact hchains

/-- Removing an actor with its slots: they are lost. -/
theorem remove (hsound : ledger.Sound) (hlive : ledger.Live ptr) (hptr : ptr ≠ deadendFlowActor) :
    (ledger.remove ptr).SlotsAccounted fun nf ↦ slotsOf nf (ledger.cards ptr).chain + lost nf := by
  obtain ⟨-, houtstanding, -⟩ := hsound.pool.push hlive
  have heq := ledger.remove_eq hptr
  refine ⟨?_, ?_, h.chains_remove hsound hlive hptr⟩
  · intro nf
    rw [heq]
    exact h.room nf
  · intro nf
    have hsum := sum_erase_update (fun card : Card ↦ slotsOf nf card.chain) ledger.cards
      ledger.allocator.outstanding (removedCard (ledger.cards ptr)) hlive
    have hbalance := h.balance nf
    rw [heq]
    change ((ledger.free nf).contents : Multiset ℕ) +
      ∑ other ∈ (ledger.allocator.push ptr).2.outstanding, slotsOf nf
        (update ledger.cards ptr (removedCard (ledger.cards ptr)) other).chain +
          (slotsOf nf (ledger.cards ptr).chain + lost nf) = _
    rw [← hbalance, ← hsum, houtstanding]
    abel

/-- The live actors together hold a slot at most once. -/
theorem sum_count_le (position : ChainSlot) :
    ∑ ptr ∈ ledger.allocator.outstanding, (ledger.cards ptr).chain.count position ≤ 1 := by
  obtain ⟨nf, slot⟩ := position
  have hcount := congrArg (Multiset.count slot) (h.balance nf)
  rw [Multiset.count_add, Multiset.count_add, Multiset.count_sum'] at hcount
  simp only [count_slotsOf] at hcount
  have hle := Multiset.nodup_iff_count_le_one.1 (Multiset.nodup_range numFlowActors) slot
  omega

theorem nodup_chain (hlive : ledger.Live ptr) : (ledger.cards ptr).chain.Nodup := by
  refine List.nodup_iff_count_le_one.2 fun position ↦ ?_
  have hle := h.sum_count_le position
  rw [← Finset.add_sum_erase _ _ hlive] at hle
  omega

theorem disjoint_chain {other : ℕ} (hlive : ledger.Live ptr) (hother : ledger.Live other) (hne : other ≠ ptr) :
    (ledger.cards other).chain.Disjoint (ledger.cards ptr).chain := by
  intro position hmem hmem'
  have hle := h.sum_count_le position
  rw [← Finset.add_sum_erase _ _ hlive, ← Finset.add_sum_erase _ _ (Finset.mem_erase.2 ⟨hne, hother⟩)] at hle
  have hpos := List.count_pos_iff.2 hmem
  have hpos' := List.count_pos_iff.2 hmem'
  omega

theorem not_free (hlive : ledger.Live ptr) {position : ChainSlot} (hmem : position ∈ (ledger.cards ptr).chain) :
    position.slot ∉ (ledger.free position.nf).contents := by
  intro hfree
  have hcount := congrArg (Multiset.count position.slot) (h.balance position.nf)
  rw [← Finset.add_sum_erase _ _ hlive, Multiset.count_add, Multiset.count_add, Multiset.count_add,
    count_slotsOf] at hcount
  have hle := Multiset.nodup_iff_count_le_one.1 (Multiset.nodup_range numFlowActors) position.slot
  have hpos := List.count_pos_iff.2 hmem
  have hpos' : 0 < Multiset.count position.slot ((ledger.free position.nf).contents : Multiset ℕ) :=
    Multiset.count_pos.2 hfree
  change 0 < (ledger.cards ptr).chain.count ⟨position.nf, position.slot⟩ at hpos
  omega

/-- Slots are only lost with an actor that completes a migration. -/
theorem effect (hsound : ledger.Sound) {input : Input σ} (heffect : ledger.Effect input ledger') :
    ledger'.SlotsAccounted lost ∨ ∃ env senderRtid message ptr,
      input = .message env senderRtid message ∧ ledger.Delivers message ptr ∧
      message.body = .migrateFlowStateResponse (ledger.cards ptr).migrationTimer.requestMsgId ∧
      ledger'.SlotsAccounted fun nf ↦ slotsOf nf (ledger.cards ptr).chain + lost nf := by
  cases heffect.transfer with
  | none _ _ _ _ htouch => exact .inl (h.touch htouch)
  | enroll _ _ _ _ _ _ _ hpop => exact .inl (h.enroll hsound hpop)
  | bindDeadend => exact .inl (h.of_same rfl rfl rfl fun _ ↦ rfl)
  | expire _ ptr _ harmed htype =>
    have hptr := hsound.ne_deadend_of_armed harmed
    exact .inl ((h.touch (.disarm ledger ptr .idle)).expire (hsound.disarm hptr .idle)
      (hsound.live_of_checkIdle harmed htype) hptr)
  | complete env senderRtid message ptr hdelivers hbody =>
    have hptr := hsound.ne_deadend_of_set hdelivers.2.2
    have htouch := (Touches.settle ledger ptr).trans (.disarm _ ptr .idle)
    have hremoved := (h.touch htouch).remove ((hsound.settle hptr).disarm hptr .idle)
      (hsound.id_live _ ptr hdelivers.2.1) hptr
    rw [htouch.chain] at hremoved
    exact .inr ⟨env, senderRtid, message, ptr, rfl, hdelivers, hbody, hremoved⟩

end SlotsAccounted

/-- In every run: the pool and the tables are sound, and no slot is in two places. -/
structure Orderly (ledger : Ledger) : Prop where
  sound : ledger.Sound
  slots : ∃ lost, ledger.SlotsAccounted lost

theorem Orderly.effect (h : ledger.Orderly) (heffect : ledger.Effect input ledger') : ledger'.Orderly := by
  obtain ⟨lost, hslots⟩ := h.slots
  refine ⟨h.sound.effect heffect, ?_⟩
  rcases hslots.effect h.sound heffect with hsame | ⟨-, -, -, ptr, -, -, -, hlost⟩
  · exact ⟨lost, hsame⟩
  · exact ⟨_, hlost⟩

theorem SlotsAccounted.keep {lost : ℕ → Multiset ℕ} (h : ledger.SlotsAccounted lost) (hsound : ledger.Sound)
    (hkeeps : ledger.KeepsSlots input) (heffect : ledger.Effect input ledger') :
    ledger'.SlotsAccounted lost := by
  rcases h.effect hsound heffect with hsame | ⟨env, senderRtid, message, ptr, rfl, hdelivers, hbody, hlost⟩
  · exact hsame
  · rw [hkeeps ptr hdelivers hbody] at hlost
    simpa using hlost

/-! ## Runs in which all allocations succeed -/

/-- There is an actor left, and a slot of every function of the chain. -/
def hasRoom (ledger : Ledger) : Bool :=
  ledger.allocator.pop.isSome &&
    decide ((FreeSlots.take ledger.serviceChain [] ledger.free).1.map ChainSlot.nf = ledger.serviceChain)

/-- The allocations of a step succeed. -/
def provides (ledger : Ledger) : Input σ → Bool
  | .packet _ pkt => (ledger.htable (flowKeyOf pkt)).isSome || ledger.hasRoom
  | .message _ _ message =>
    match message.body with
    | .createMigrationTargetActor _ _ _ => ledger.hasRoom
    | .replication _ _ key _ _ => (ledger.htable key).isSome || ledger.hasRoom
    | _ => true
  | _ => true

theorem hasRoom_of_admits {key : FlowKey} (hprovides : ledger.provides input = true)
    (h : ledger.Admits input key) : ledger.hasRoom = true := by
  cases h with
  | packet _ _ hnone => simpa [provides, hnone] using hprovides
  | target _ _ _ _ _ _ _ hbody =>
    simpa [provides, hbody] using hprovides
  | replica _ _ _ _ _ _ _ _ _ hbody hnone =>
    simpa [provides, hbody, hnone] using hprovides

/-- Every flow actor has a slot of every function of the service chain. -/
def Full (ledger : Ledger) : Prop :=
  ∀ ptr, ledger.Live ptr → ptr ≠ deadendFlowActor →
    (ledger.cards ptr).chain.map ChainSlot.nf = ledger.serviceChain

theorem Effect.serviceChain (h : ledger.Effect input ledger') :
    ledger'.serviceChain = ledger.serviceChain := by
  cases h.transfer with
  | none _ _ _ _ htouch => exact htouch.serviceChain
  | enroll => rfl
  | bindDeadend => rfl
  | expire =>
    rw [remove]
    split <;> rfl
  | complete =>
    rw [Ledger.complete, Ledger.remove]
    split <;> rfl

theorem Full.effect (h : ledger.Full) (hsound : ledger.Sound) (hprovides : ledger.provides input = true)
    (heffect : ledger.Effect input ledger') : ledger'.Full := by
  intro ptr hlive hptr
  rw [heffect.serviceChain]
  rcases heffect.turn_or_admitted hsound hlive with ⟨hold, hturn⟩ | ⟨_, _, _, hadmitted⟩
  · rw [← h ptr hold hptr]
    generalize ledger'.cards ptr = card at hturn
    cases hturn <;> rfl
  · have hroom := hasRoom_of_admits hprovides hadmitted.admits
    simp only [hasRoom, Bool.and_eq_true, decide_eq_true_eq] at hroom
    rw [hadmitted.card]
    exact hroom.2

end Ledger

namespace Runtime

variable {σ τ : Type} (config : RuntimeConfig) (serviceChain : List ℕ) (code : ℕ → NetworkFunction σ τ)
  (zero : ℕ → σ) (sharedState : ℕ → τ)

/-- Every slot is in one place: the free ring, or a chain position of a live actor. If no function occurs twice
in the chain, a free actor finds a slot of each. -/
structure SlotsConserved (rt : Runtime σ τ) : Prop where
  once : ∀ nf slot, slot < numFlowActors → (rt.nfs nf).ringBuf.contents.count slot +
    ∑ ptr ∈ rt.allocator.outstanding, (rt.actors ptr).chain.count ⟨nf, slot⟩ = 1
  available : rt.serviceChain.Nodup → rt.allocator.contents ≠ [] →
    ∀ nf ∈ rt.serviceChain, (rt.nfs nf).ringBuf.contents ≠ []

/-- The live actors hold at most one slot of a function each, and are fewer than the slots. -/
theorem available_of_accounted {ledger : Ledger} (hsound : ledger.Sound)
    (h : ledger.SlotsAccounted fun _ ↦ 0) (hnodup : ledger.serviceChain.Nodup)
    (hfree : ledger.allocator.contents ≠ []) (nf : ℕ) : (ledger.free nf).contents ≠ [] := by
  have hcard := congrArg Multiset.card (h.balance nf)
  rw [add_zero, ← Finset.add_sum_erase _ _ hsound.deadend_live, Multiset.card_add, Multiset.card_add,
    Multiset.coe_card, RingBuffer.length_contents, Multiset.card_range] at hcard
  have hdeadend : slotsOf nf (ledger.cards deadendFlowActor).chain = 0 := by
    rw [hsound.blank.chain, slotsOf_nil]
  have hone : ∀ ptr ∈ ledger.allocator.outstanding.erase deadendFlowActor,
      (slotsOf nf (ledger.cards ptr).chain).card ≤ 1 := by
    intro ptr hptr
    rw [card_slotsOf]
    rcases h.chains ptr (Finset.mem_of_mem_erase hptr) with hnil | hmap
    · simp [hnil]
    · rw [hmap]
      exact List.nodup_iff_count_le_one.1 hnodup nf
  have hle : (∑ ptr ∈ ledger.allocator.outstanding.erase deadendFlowActor,
      slotsOf nf (ledger.cards ptr).chain).card ≤
      (ledger.allocator.outstanding.erase deadendFlowActor).card := by
    rw [Multiset.card_sum]
    calc ∑ ptr ∈ ledger.allocator.outstanding.erase deadendFlowActor,
          (slotsOf nf (ledger.cards ptr).chain).card
        ≤ ∑ _ptr ∈ ledger.allocator.outstanding.erase deadendFlowActor, 1 := Finset.sum_le_sum hone
      _ = (ledger.allocator.outstanding.erase deadendFlowActor).card := by simp
  have hlive := hsound.pool.card_outstanding
  rw [hsound.maxSize] at hlive
  rw [Finset.card_erase_of_mem hsound.deadend_live] at hle
  have hsize : 0 < ledger.allocator.curSize := by
    rw [← RingBuffer.length_contents]
    exact List.length_pos_iff.2 hfree
  have hpos : 0 < (ledger.free nf).contents.length := by
    rw [RingBuffer.length_contents]
    rw [hdeadend, Multiset.card_zero] at hcard
    omega
  exact List.length_pos_iff.1 hpos

theorem slotsAccounted_boot :
    (boot config serviceChain code zero sharedState).ledger.SlotsAccounted fun _ ↦ 0 := by
  have hchain : ∀ ptr, ((boot config serviceChain code zero sharedState).ledger.cards ptr).chain = [] :=
    fun ptr ↦ (blank_boot config serviceChain code zero sharedState ptr).chain
  refine ⟨fun _ ↦ rfl, ?_, fun ptr _ ↦ .inl (hchain ptr)⟩
  intro nf
  simp only [hchain, slotsOf_nil, Finset.sum_const_zero, add_zero]
  change ((RingBuffer.filled numFlowActors _ id).contents : Multiset ℕ) = _
  rw [RingBuffer.contents_filled, List.map_id]
  rfl

theorem orderly_boot : (boot config serviceChain code zero sharedState).ledger.Orderly :=
  ⟨sound_boot config serviceChain code zero sharedState,
    _, slotsAccounted_boot config serviceChain code zero sharedState⟩

theorem full_boot : (boot config serviceChain code zero sharedState).ledger.Full := by
  intro ptr hlive hptr
  exact absurd (live_boot hlive) hptr

/-- Slots are neither lost nor shared if no actor that owns slots completes a migration. -/
theorem slots_conserved {rt : Runtime σ τ}
    (hreach : (system σ τ).Reachable (fun rt input ↦ rt.ledger.KeepsSlots input) rt) :
    rt.SlotsConserved := by
  have hsound := sound_of_reachable hreach
  have hbalanced : rt.ledger.SlotsAccounted fun _ ↦ 0 := by
    refine @ledger_invariant _ _ _ (fun ledger ↦ ledger.SlotsAccounted fun _ ↦ 0) _ hreach slotsAccounted_boot ?_
    intro rt input ledger' hsound hbalanced hkeeps heffect
    exact hbalanced.keep hsound hkeeps heffect
  refine ⟨?_, ?_⟩
  · intro nf slot hslot
    have hcount := congrArg (Multiset.count slot) (hbalanced.balance nf)
    rw [add_zero, Multiset.count_add, Multiset.coe_count, Multiset.count_sum',
      Multiset.count_eq_one_of_mem (Multiset.nodup_range _) (Multiset.mem_range.2 hslot)] at hcount
    simp only [count_slotsOf] at hcount
    exact hcount
  · intro hnodup hfree nf _
    exact available_of_accounted hsound hbalanced hnodup hfree nf

theorem slots_conserved_after_first_packet : ∃ rt : Runtime Unit Unit,
    (system Unit Unit).step (smallBoot [1]) (.packet connected (tcpPacket 7)) = some rt ∧
      (rt.actors 1).chain = [⟨1, 0⟩] ∧ rt.SlotsConserved := by
  obtain ⟨rt, hstep, hchain⟩ : ∃ rt ∈ (system Unit Unit).step (smallBoot [1])
      (.packet connected (tcpPacket 7)), (rt.actors 1).chain = [⟨1, 0⟩] := by decide +kernel
  refine ⟨rt, hstep, hchain, slots_conserved ?_⟩
  exact .next (.packet connected (tcpPacket 7)) (.start (init_smallBoot [1])) trivial hstep

/-- The four messages of a migration reach the source in order. -/
def successfulMigration : List (Input Unit) :=
  [.packet connected (tcpPacket 7), .migrateTo 1 2, .migrationIteration connected,
    .message connected 2 ⟨coordinatorActorId, 3, 5, .startMigrationResponse 2 8⟩,
    .message connected 3 ⟨coordinatorActorId, 3, 6, .changeVswitchRouteResponse 3 0⟩,
    .message connected 2 ⟨8, 3, 7, .migrateFlowStateResponse 4⟩]

/-- After a successful migration the source has no flow, but a slot is missing. -/
theorem slot_lost_by_migration : ∃ rt : Runtime Unit Unit,
    (system Unit Unit).Reachable TransitionSystem.anyStep rt ∧ rt.migration.successful = 1 ∧
      (∀ ptr, rt.Allocated ptr → ptr = deadendFlowActor) ∧
      (rt.nfs 1).ringBuf.curSize = numFlowActors - 1 ∧ ¬rt.SlotsConserved := by
  obtain ⟨rt, hsteps, hsuccess, hactors, hring⟩ :
      ∃ rt ∈ (system Unit Unit).run (smallBoot [1]) successfulMigration, rt.migration.successful = 1 ∧
        rt.allocator.curSize = numFlowActors - 1 ∧ (rt.nfs 1).ringBuf.curSize = numFlowActors - 1 := by
    decide +kernel
  have hreach := TransitionSystem.Reachable.replay (init_smallBoot [1]) hsteps
  have hsound := sound_of_reachable hreach
  have hsingle : rt.allocator.outstanding = {deadendFlowActor} := by
    have hcard : rt.allocator.outstanding.card + rt.allocator.curSize = rt.allocator.maxSize :=
      hsound.pool.card_outstanding
    have hmax : rt.allocator.maxSize = numFlowActors := hsound.maxSize
    have hpos : 0 < numFlowActors := by decide
    have hone : rt.allocator.outstanding.card = 1 := by omega
    obtain ⟨ptr, hptr⟩ := Finset.card_eq_one.1 hone
    have hdeadend : deadendFlowActor ∈ rt.allocator.outstanding := hsound.deadend_live
    rw [hptr, Finset.mem_singleton] at hdeadend
    rw [hptr, hdeadend]
  refine ⟨rt, hreach, hsuccess, ?_, hring, ?_⟩
  · intro ptr hptr
    rw [Allocated, hsingle, Finset.mem_singleton] at hptr
    exact hptr
  · intro hconserved
    have hchain : (rt.actors deadendFlowActor).chain = [] := hsound.blank.chain
    have hsubset : List.range numFlowActors ⊆ (rt.nfs 1).ringBuf.contents := by
      intro slot hslot
      have hcount := hconserved.once 1 slot (List.mem_range.1 hslot)
      rw [hsingle, Finset.sum_singleton, hchain, List.count_nil, add_zero] at hcount
      exact List.count_pos_iff.1 (by omega)
    have hle := (List.subperm_of_subset List.nodup_range hsubset).length_le
    rw [List.length_range, RingBuffer.length_contents, hring] at hle
    have hpos : 0 < numFlowActors := by decide
    omega

end Runtime

end NfvActor.Actor
