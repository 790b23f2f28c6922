import Mathlib.Tactic
import NfvActor.Actor.NetworkFunction

/-!
# Flow states by chain position

A chain names slots in arrays that all flows share. As long as no position occurs twice, the flow states behind
a chain behave like a private list, and a chain without a common position does not notice.
-/

namespace NfvActor.Actor

open NfvActor.Foundation
open NfvActor.Reliable (Packet)
open Function

/-- The flow states of a chain, each with its network function. -/
abbrev Holding (σ : Type) := List (ℕ × σ)

namespace Holding

variable {σ τ : Type}

/-- A packet runs through the functions until one rejects it. -/
def run (code : ℕ → NetworkFunction σ τ) :
    Holding σ → Packet → (ℕ → τ) → Bool × Packet × Holding σ × (ℕ → τ)
  | [], pkt, shared => (true, pkt, [], shared)
  | (nf, state) :: rest, pkt, shared =>
    let result := (code nf).nfLogic pkt state (shared nf)
    let shared' := update shared nf result.2.2.2
    if result.1 then
      let others := run code rest result.2.1 shared'
      (others.1, others.2.1, (nf, result.2.2.1) :: others.2.2.1, others.2.2.2)
    else
      (false, result.2.1, (nf, result.2.2.1) :: rest, shared')

/-- An entry point of every function is called on its flow state, in order. -/
def each (entry : NetworkFunction σ τ → σ → τ → σ × τ) (code : ℕ → NetworkFunction σ τ) :
    Holding σ → (ℕ → τ) → Holding σ × (ℕ → τ)
  | [], shared => ([], shared)
  | (nf, state) :: rest, shared =>
    let result := entry (code nf) state (shared nf)
    let others := each entry code rest (update shared nf result.2)
    ((nf, result.1) :: others.1, others.2)

/-- The flow states of a message for the given functions, from position `index` on. -/
def load (states : ℕ → σ) : ℕ → List ℕ → Holding σ
  | _, [] => []
  | index, nf :: rest => (nf, states index) :: load states (index + 1) rest

theorem map_fst_run (code : ℕ → NetworkFunction σ τ) (held : Holding σ) (pkt : Packet) (shared : ℕ → τ) :
    (run code held pkt shared).2.2.1.map Prod.fst = held.map Prod.fst := by
  induction held generalizing pkt shared with
  | nil => rfl
  | cons _ _ ih =>
    simp only [run]
    split
    · simp only [List.map_cons, ih]
    · rfl

theorem map_fst_each (entry : NetworkFunction σ τ → σ → τ → σ × τ) (code : ℕ → NetworkFunction σ τ)
    (held : Holding σ) (shared : ℕ → τ) :
    (each entry code held shared).1.map Prod.fst = held.map Prod.fst := by
  induction held generalizing shared with
  | nil => rfl
  | cons _ _ ih => simp only [each, List.map_cons, ih]

end Holding

namespace NfTable

variable {σ τ : Type} (nfs : NfTable σ τ)

/-- The flow states in the slots of a chain. -/
def view (nfs : NfTable σ τ) (chain : List ChainSlot) : Holding σ :=
  chain.map fun position ↦ (position.nf, (nfs position.nf).array position.slot)

/-- The code of all network functions. -/
def code (nfs : NfTable σ τ) : ℕ → NetworkFunction σ τ := fun nf ↦ (nfs nf).code

/-- The shared states of all network functions. -/
def shared (nfs : NfTable σ τ) : ℕ → τ := fun nf ↦ (nfs nf).sharedState

theorem map_fst_view (chain : List ChainSlot) : (nfs.view chain).map Prod.fst = chain.map ChainSlot.nf := by
  simp [view]

/-- The code stays, and the flow states outside the given positions stay. -/
structure Rewrites (nfs nfs' : NfTable σ τ) (positions : Set ChainSlot) : Prop where
  code : nfs'.code = nfs.code
  others : ∀ position, position ∉ positions →
    (nfs' position.nf).array position.slot = (nfs position.nf).array position.slot

namespace Rewrites

variable {nfs nfs' nfs'' : NfTable σ τ} {positions positions' : Set ChainSlot}

theorem refl (nfs : NfTable σ τ) (positions : Set ChainSlot) : nfs.Rewrites nfs positions :=
  ⟨rfl, fun _ _ ↦ rfl⟩

theorem trans (h : nfs.Rewrites nfs' positions) (h' : nfs'.Rewrites nfs'' positions) :
    nfs.Rewrites nfs'' positions :=
  ⟨h'.code.trans h.code, fun position hnot ↦ (h'.others position hnot).trans (h.others position hnot)⟩

theorem mono (h : nfs.Rewrites nfs' positions) (hsub : positions ⊆ positions') :
    nfs.Rewrites nfs' positions' :=
  ⟨h.code, fun position hnot ↦ h.others position fun hmem ↦ hnot (hsub hmem)⟩

theorem view_eq (h : nfs.Rewrites nfs' positions) {chain : List ChainSlot}
    (hdisjoint : ∀ position ∈ chain, position ∉ positions) : nfs'.view chain = nfs.view chain := by
  refine List.map_congr_left fun position hmem ↦ ?_
  rw [h.others position (hdisjoint position hmem)]

/-- Replacing a network function whose array differs in one slot. -/
theorem set (nfs : NfTable σ τ) (position : ChainSlot) {state : NfInstance σ τ}
    (hcode : state.code = (nfs position.nf).code)
    (harray : ∀ slot, slot ≠ position.slot → state.array slot = (nfs position.nf).array slot) :
    nfs.Rewrites (nfs.set position.nf state) {position} := by
  constructor
  · funext nf
    by_cases hnf : nf = position.nf
    · subst hnf
      simp only [NfTable.code, NfTable.set, update_self, hcode]
    · simp only [NfTable.code, NfTable.set, update_of_ne hnf]
  · intro other hother
    by_cases hnf : other.nf = position.nf
    · rw [NfTable.set, hnf, update_self]
      refine harray other.slot fun hslot ↦ hother ?_
      obtain ⟨nf, slot⟩ := other
      obtain ⟨nf', slot'⟩ := position
      simp only at hnf hslot
      rw [hnf, hslot]
      rfl
    · rw [NfTable.set, update_of_ne hnf]

end Rewrites

theorem shared_set (nf : ℕ) (state : NfInstance σ τ) :
    (nfs.set nf state).shared = update nfs.shared nf state.sharedState := by
  funext other
  simp only [shared, set, update_apply]
  split <;> rfl

end NfTable

/-- An operation on a slot that calls an entry point on its flow state. -/
structure NfInstance.Acts {σ τ : Type} (operation : NfInstance σ τ → ℕ → NfInstance σ τ)
    (entry : NetworkFunction σ τ → σ → τ → σ × τ) : Prop where
  code : ∀ nf slot, (operation nf slot).code = nf.code
  array : ∀ nf slot, (operation nf slot).array =
    update nf.array slot (entry nf.code (nf.array slot) nf.sharedState).1
  shared : ∀ nf slot, (operation nf slot).sharedState =
    (entry nf.code (nf.array slot) nf.sharedState).2

namespace NfInstance.Acts

variable {σ τ : Type} (status : LeaveStatus)

theorem keep : Acts (fun (nf : NfInstance σ τ) _ ↦ nf) fun _ state shared ↦ (state, shared) :=
  ⟨fun _ _ ↦ rfl, fun nf slot ↦ (update_eq_self slot nf.array).symm, fun _ _ ↦ rfl⟩

theorem nfFlowArrive (status : ArriveStatus) :
    Acts (fun (nf : NfInstance σ τ) slot ↦ nf.nfFlowArrive slot status)
      fun code state shared ↦ code.nfFlowArrive state shared status :=
  ⟨fun _ _ ↦ rfl, fun _ _ ↦ rfl, fun _ _ ↦ rfl⟩

theorem nfFlowLeave : Acts (fun (nf : NfInstance σ τ) slot ↦ nf.nfFlowLeave slot status)
      fun code state shared ↦ code.nfFlowLeave state shared status :=
  ⟨fun _ _ ↦ rfl, fun _ _ ↦ rfl, fun _ _ ↦ rfl⟩

theorem leaveAndDeallocate :
    Acts (fun (nf : NfInstance σ τ) slot ↦ (nf.nfFlowLeave slot status).deallocate slot)
      fun code state shared ↦ code.nfFlowLeave state shared status :=
  ⟨fun _ _ ↦ rfl, fun _ _ ↦ rfl, fun _ _ ↦ rfl⟩

end NfInstance.Acts

namespace NfTable

variable {σ τ : Type} {position : ChainSlot} {rest : List ChainSlot}

/-- A loop over a chain has rewritten its flow states to the given ones. -/
structure Turns (nfs nfs' : NfTable σ τ) (chain : List ChainSlot) (held : Holding σ)
    (shared : ℕ → τ) : Prop where
  rewrites : nfs.Rewrites nfs' { position | position ∈ chain }
  view : nfs'.view chain = held
  shared : nfs'.shared = shared

variable {state : NfInstance σ τ} {chain : List ChainSlot} {operation : NfInstance σ τ → ℕ → NfInstance σ τ}
  {entry : NetworkFunction σ τ → σ → τ → σ × τ}

/-- The first position is rewritten, then the others. -/
theorem Turns.cons {nfs nfs' : NfTable σ τ} {value : σ} {held : Holding σ} {shared : ℕ → τ}
    (hcode : state.code = (nfs position.nf).code)
    (harray : state.array = update (nfs position.nf).array position.slot value) (hnot : position ∉ rest)
    (h : (nfs.set position.nf state).Turns nfs' rest held shared) :
    nfs.Turns nfs' (position :: rest) ((position.nf, value) :: held) shared := by
  have hset : nfs.Rewrites (nfs.set position.nf state) {position} := by
    refine Rewrites.set nfs position hcode fun slot hslot ↦ ?_
    rw [harray, update_of_ne hslot]
  refine ⟨?_, ?_, h.shared⟩
  · refine (hset.mono ?_).trans (h.rewrites.mono ?_)
    · rintro other rfl
      exact List.mem_cons_self
    · intro other hmem
      exact List.mem_cons_of_mem position hmem
  · have hfirst : (nfs' position.nf).array position.slot = value := by
      rw [h.rewrites.others position hnot, set, update_self, harray, update_self]
    rw [NfTable.view, List.map_cons, hfirst]
    exact congrArg _ h.view

theorem view_set_rest {nfs : NfTable σ τ} {value : σ} (hcode : state.code = (nfs position.nf).code)
    (harray : state.array = update (nfs position.nf).array position.slot value) (hnot : position ∉ rest) :
    (nfs.set position.nf state).view rest = nfs.view rest ∧ (nfs.set position.nf state).code = nfs.code := by
  have hset : nfs.Rewrites (nfs.set position.nf state) {position} := by
    refine Rewrites.set nfs position hcode fun slot hslot ↦ ?_
    rw [harray, update_of_ne hslot]
  refine ⟨hset.view_eq ?_, hset.code⟩
  rintro other hmem rfl
  exact hnot hmem

theorem runChain_turns (hnodup : chain.Nodup) (pkt : Packet) (nfs : NfTable σ τ) :
    (runChain chain pkt nfs).1 = (Holding.run nfs.code (nfs.view chain) pkt nfs.shared).1 ∧
      (runChain chain pkt nfs).2.1 = (Holding.run nfs.code (nfs.view chain) pkt nfs.shared).2.1 ∧
      nfs.Turns (runChain chain pkt nfs).2.2 chain (Holding.run nfs.code (nfs.view chain) pkt nfs.shared).2.2.1
        (Holding.run nfs.code (nfs.view chain) pkt nfs.shared).2.2.2 := by
  induction chain generalizing pkt nfs with
  | nil => exact ⟨rfl, rfl, Rewrites.refl nfs _, rfl, rfl⟩
  | cons position rest ih =>
    obtain ⟨hnot, hrest⟩ := List.nodup_cons.1 hnodup
    let state := ((nfs position.nf).nfLogic pkt position.slot).2.2
    have hcode : state.code = (nfs position.nf).code := rfl
    obtain ⟨hview, hcodes⟩ := view_set_rest hcode rfl hnot
    have hshared : (nfs.set position.nf state).shared = update nfs.shared position.nf
        (nfs.code position.nf |>.nfLogic pkt ((nfs position.nf).array position.slot)
          (nfs.shared position.nf)).2.2.2 := shared_set nfs position.nf state
    have hnext := ih hrest ((nfs position.nf).nfLogic pkt position.slot).2.1 (nfs.set position.nf state)
    rw [hview, hcodes, hshared] at hnext
    have hsplit : nfs.view (position :: rest) =
        (position.nf, (nfs position.nf).array position.slot) :: nfs.view rest := rfl
    rw [hsplit]
    simp only [runChain, Holding.run]
    by_cases hverdict : ((nfs position.nf).nfLogic pkt position.slot).1 = true
    · have hverdict' : (nfs.code position.nf |>.nfLogic pkt ((nfs position.nf).array position.slot)
          (nfs.shared position.nf)).1 = true := hverdict
      rw [if_pos hverdict, if_pos hverdict']
      exact ⟨hnext.1, hnext.2.1, hnext.2.2.cons hcode rfl hnot⟩
    · have hverdict' : ¬(nfs.code position.nf |>.nfLogic pkt ((nfs position.nf).array position.slot)
          (nfs.shared position.nf)).1 = true := hverdict
      rw [if_neg hverdict, if_neg hverdict']
      refine ⟨rfl, rfl, Turns.cons hcode rfl hnot ⟨Rewrites.refl _ _, hview, hshared⟩⟩

theorem forChain_turns (hacts : NfInstance.Acts operation entry) (hnodup : chain.Nodup) (nfs : NfTable σ τ) :
    nfs.Turns (forChain operation nfs chain) chain (Holding.each entry nfs.code (nfs.view chain) nfs.shared).1
      (Holding.each entry nfs.code (nfs.view chain) nfs.shared).2 := by
  induction chain generalizing nfs with
  | nil => exact ⟨Rewrites.refl nfs _, rfl, rfl⟩
  | cons position _ ih =>
    obtain ⟨hnot, hrest⟩ := List.nodup_cons.1 hnodup
    let state := operation (nfs position.nf) position.slot
    have hcode : state.code = (nfs position.nf).code := hacts.code _ _
    have harray := hacts.array (nfs position.nf) position.slot
    obtain ⟨hview, hcodes⟩ := view_set_rest hcode harray hnot
    have hshared : (nfs.set position.nf state).shared = update nfs.shared position.nf
        (entry (nfs.code position.nf) ((nfs position.nf).array position.slot) (nfs.shared position.nf)).2 := by
      rw [shared_set, hacts.shared]
      rfl
    have hnext := ih hrest (nfs.set position.nf state)
    rw [hview, hcodes, hshared] at hnext
    exact hnext.cons hcode harray hnot

theorem forChain_deallocate {α : Type} (field : NfInstance σ τ → α)
    (hfield : ∀ nf slot, field (NfInstance.deallocate nf slot) = field nf) (nfs : NfTable σ τ)
    (chain : List ChainSlot) :
    (fun nf ↦ field (forChain NfInstance.deallocate nfs chain nf)) = fun nf ↦ field (nfs nf) := by
  induction chain generalizing nfs with
  | nil => rfl
  | cons position _ ih =>
    have hrest := ih (nfs.set position.nf ((nfs position.nf).deallocate position.slot))
    refine Eq.trans hrest (funext fun nf ↦ ?_)
    by_cases hnf : nf = position.nf
    · rw [hnf, set, update_self, hfield]
    · rw [set, update_of_ne hnf]

theorem loadChain_turns (hacts : NfInstance.Acts operation entry) (states : ℕ → σ) (index : ℕ)
    (hnodup : chain.Nodup) (nfs : NfTable σ τ) :
    nfs.Turns (loadChain operation states index chain nfs) chain
      (Holding.each entry nfs.code (Holding.load states index (chain.map ChainSlot.nf)) nfs.shared).1
      (Holding.each entry nfs.code (Holding.load states index (chain.map ChainSlot.nf)) nfs.shared).2 := by
  induction chain generalizing index nfs with
  | nil => exact ⟨Rewrites.refl nfs _, rfl, rfl⟩
  | cons position _ ih =>
    obtain ⟨hnot, hrest⟩ := List.nodup_cons.1 hnodup
    let loaded := (nfs position.nf).store position.slot (states index)
    let state := operation loaded position.slot
    have hcode : state.code = (nfs position.nf).code := hacts.code _ _
    have hvalue : loaded.array position.slot = states index := update_self _ _ _
    have harray : state.array = update (nfs position.nf).array position.slot
        (entry (nfs.code position.nf) (states index) (nfs.shared position.nf)).1 := by
      rw [hacts.array loaded position.slot, hvalue]
      exact update_idem _ _ _
    have hshared : (nfs.set position.nf state).shared = update nfs.shared position.nf
        (entry (nfs.code position.nf) (states index) (nfs.shared position.nf)).2 := by
      rw [shared_set, hacts.shared loaded position.slot, hvalue]
      rfl
    obtain ⟨-, hcodes⟩ := view_set_rest hcode harray hnot
    have hnext := ih (index + 1) hrest (nfs.set position.nf state)
    rw [hcodes, hshared] at hnext
    exact hnext.cons hcode harray hnot

/-! ## Taking slots -/

/-- A flow state that `nf_init_fs` has just written. -/
def Initial (nfs : NfTable σ τ) (position : ChainSlot) : Prop :=
  ∃ garbage, (nfs position.nf).array position.slot = (nfs position.nf).code.nfInitFs garbage

theorem allocated_instance (nf : NfInstance σ τ) (ring : RingBuffer ℕ) (initialise : Bool) (slot : ℕ) :
    (if initialise then { nf with ringBuf := ring }.nfInitFs slot else { nf with ringBuf := ring }).code =
        nf.code ∧
      (if initialise then { nf with ringBuf := ring }.nfInitFs slot
        else { nf with ringBuf := ring }).ringBuf = ring ∧
      (if initialise then { nf with ringBuf := ring }.nfInitFs slot
        else { nf with ringBuf := ring }).sharedState = nf.sharedState ∧
      (if initialise then { nf with ringBuf := ring }.nfInitFs slot
        else { nf with ringBuf := ring }).array = if initialise then
          update nf.array slot (nf.code.nfInitFs (nf.array slot)) else nf.array := by
  cases initialise <;> exact ⟨rfl, rfl, rfl, rfl⟩

/-- Only free slots are written, and no shared state. -/
theorem allocateChain_rewrites (initialise : Bool) (serviceChain : List ℕ) (taken : List ChainSlot)
    (nfs : NfTable σ τ) :
    nfs.Rewrites (allocateChain initialise serviceChain taken nfs).2
        { position | position.slot ∈ (nfs position.nf).ringBuf.contents } ∧
      (allocateChain initialise serviceChain taken nfs).2.shared = nfs.shared := by
  induction serviceChain generalizing taken nfs with
  | nil => exact ⟨Rewrites.refl nfs _, rfl⟩
  | cons nf _ ih =>
    simp only [allocateChain]
    split
    · refine ⟨⟨?_, ?_⟩, ?_⟩
      · exact forChain_deallocate NfInstance.code (fun _ _ ↦ rfl) nfs taken
      · intro position _
        have harray := forChain_deallocate NfInstance.array (fun _ _ ↦ rfl) nfs taken
        exact congrFun (congrFun harray position.nf) position.slot
      · exact forChain_deallocate NfInstance.sharedState (fun _ _ ↦ rfl) nfs taken
    · next slot ring hpop =>
      obtain ⟨hcode, hring, hshared, harray⟩ := allocated_instance (nfs nf) ring initialise slot
      have hcontents := (RingBuffer.contents_pop hpop).1
      obtain ⟨hrewrites, hsame⟩ := ih (taken ++ [⟨nf, slot⟩]) (nfs.set nf
        (if initialise then { nfs nf with ringBuf := ring }.nfInitFs slot
          else { nfs nf with ringBuf := ring }))
      have hset : nfs.Rewrites (nfs.set nf (if initialise then
          { nfs nf with ringBuf := ring }.nfInitFs slot else { nfs nf with ringBuf := ring }))
          {(⟨nf, slot⟩ : ChainSlot)} := by
        refine Rewrites.set nfs ⟨nf, slot⟩ hcode fun other hother ↦ ?_
        rw [harray]
        split
        · exact update_of_ne hother _ _
        · rfl
      refine ⟨(hset.mono ?_).trans (hrewrites.mono ?_), ?_⟩
      · rintro position rfl
        change slot ∈ (nfs nf).ringBuf.contents
        rw [hcontents]
        exact List.mem_cons_self
      · intro position hmem
        change position.slot ∈ (nfs position.nf).ringBuf.contents
        change position.slot ∈ (update nfs nf _ position.nf).ringBuf.contents at hmem
        by_cases hnf : position.nf = nf
        · rw [hnf, update_self, hring] at hmem
          rw [hnf, hcontents]
          exact List.mem_cons_of_mem slot hmem
        · rwa [update_of_ne hnf] at hmem
      · rw [hsame, shared_set, hshared]
        exact update_eq_self nf nfs.shared

/-- Every slot of a chain that was taken with `nf_init_fs` is initial. -/
theorem allocateChain_initial (serviceChain : List ℕ) (taken : List ChainSlot) (nfs : NfTable σ τ)
    (htaken : ∀ position ∈ taken, nfs.Initial position) :
    ∀ position ∈ (allocateChain true serviceChain taken nfs).1,
      (allocateChain true serviceChain taken nfs).2.Initial position := by
  induction serviceChain generalizing taken nfs with
  | nil => exact htaken
  | cons nf _ ih =>
    simp only [allocateChain, if_true]
    split
    · intro position hmem
      exact absurd hmem List.not_mem_nil
    · next slot ring hpop =>
      refine ih (taken ++ [⟨nf, slot⟩]) _ ?_
      have hnew : (nfs.set nf ({ nfs nf with ringBuf := ring }.nfInitFs slot)).Initial ⟨nf, slot⟩ := by
        refine ⟨(nfs nf).array slot, ?_⟩
        simp only [set, update_self]
        exact update_self _ _ _
      intro position hmem
      rcases List.mem_append.1 hmem with hold | hlast
      · by_cases hsame : position = ⟨nf, slot⟩
        · rw [hsame]
          exact hnew
        · obtain ⟨garbage, hgarbage⟩ := htaken position hold
          have hset : nfs.Rewrites (nfs.set nf ({ nfs nf with ringBuf := ring }.nfInitFs slot))
              {(⟨nf, slot⟩ : ChainSlot)} :=
            Rewrites.set nfs ⟨nf, slot⟩ rfl fun other hother ↦ update_of_ne hother _ _
          refine ⟨garbage, ?_⟩
          rw [hset.others position hsame, hgarbage]
          exact congrArg (fun code : ℕ → NetworkFunction σ τ ↦ (code position.nf).nfInitFs garbage)
            hset.code.symm
      · rw [List.mem_singleton.1 hlast]
        exact hnew

/-- Loading what has been saved gives the flow states back. -/
theorem load_saveChain (nfs : NfTable σ τ) (chain : List ChainSlot) (stale : ℕ → σ) :
    Holding.load (nfs.saveChain chain stale) 0 (chain.map ChainSlot.nf) = nfs.view chain := by
  have hshift : ∀ (before rest : List ChainSlot),
      Holding.load (nfs.saveChain (before ++ rest) stale) before.length (rest.map ChainSlot.nf) =
        nfs.view rest := by
    intro before rest
    induction rest generalizing before with
    | nil => rfl
    | cons position rest ih =>
      have hnext := ih (before ++ [position])
      rw [List.append_assoc, List.singleton_append, List.length_append, List.length_singleton] at hnext
      have hfirst : nfs.saveChain (before ++ position :: rest) stale before.length =
          (nfs position.nf).array position.slot := by
        simp [saveChain]
      rw [List.map_cons, Holding.load, hnext, hfirst]
      rfl
  exact hshift [] chain

end NfTable

end NfvActor.Actor
