import Mathlib.Tactic
import NfvActor.Actor.Holdings
import NfvActor.Actor.StateSlots

/-!
# The contents of a runtime

The contents are what the ledger leaves out: the network functions with their shared states, the flow states and
buffered packets of every live actor, and the messages with flow states that were sent. Slots are exclusive, so
a step changes the flow states of one actor only. `Change` lists all that a step can do to ledger and contents.
-/

namespace NfvActor.Actor

open NfvActor.Foundation
open NfvActor.Reliable (Packet)
open Function
open Option (bind_eq_some_iff map_eq_some_iff)

/-- The messages that carry flow states. -/
def MessageBody.carriesStates {σ : Type} : MessageBody σ → Bool
  | replication _ _ _ _ _ => true
  | migrateFlowState _ => true
  | _ => false

@[ext]
structure Contents (σ τ : Type) where
  code : ℕ → NetworkFunction σ τ
  held : ℕ → Holding σ
  buffers : ℕ → List Packet
  shared : ℕ → τ
  cargo : List (UInt32 × Message σ)

namespace Contents

variable {σ τ : Type}

/-- What one actor holds, and the shared states. -/
def put (contents : Contents σ τ) (ptr : ℕ) (held : Holding σ) (buffer : List Packet)
    (shared : ℕ → τ) : Contents σ τ :=
  { contents with
    held := update contents.held ptr held
    buffers := update contents.buffers ptr buffer
    shared := shared }

/-- A packet runs through the chain of an actor. -/
def process (contents : Contents σ τ) (code : ℕ → NetworkFunction σ τ) (ptr : ℕ) (pkt : Packet) :
    Contents σ τ :=
  let result := Holding.run code (contents.held ptr) pkt contents.shared
  contents.put ptr result.2.2.1 (contents.buffers ptr) result.2.2.2

/-- An entry point is called on all given flow states, which the actor then holds. -/
def call (contents : Contents σ τ) (entry : NetworkFunction σ τ → σ → τ → σ × τ)
    (code : ℕ → NetworkFunction σ τ) (ptr : ℕ) (held : Holding σ) : Contents σ τ :=
  let result := Holding.each entry code held contents.shared
  contents.put ptr result.1 (contents.buffers ptr) result.2

/-- The buffered packets of an actor run through its chain. -/
def replay (contents : Contents σ τ) (code : ℕ → NetworkFunction σ τ) (ptr : ℕ) : Contents σ τ :=
  let result := (contents.buffers ptr).foldl (fun contents pkt ↦ contents.process code ptr pkt) contents
  result.put ptr (result.held ptr) [] result.shared

/-- An actor leaves: the entry point is called on its flow states, and it holds nothing. -/
def leave (contents : Contents σ τ) (status : LeaveStatus) (code : ℕ → NetworkFunction σ τ) (ptr : ℕ) :
    Contents σ τ :=
  contents.put ptr [] [] (Holding.each (fun code state shared ↦ code.nfFlowLeave state shared status)
    code (contents.held ptr) contents.shared).2

def send (contents : Contents σ τ) (sent : List (UInt32 × Message σ)) : Contents σ τ :=
  { contents with cargo := contents.cargo ++ sent }

section

variable (contents : Contents σ τ) (ptr : ℕ) (held held' : Holding σ) (buffer buffer' : List Packet)
  (shared shared' : ℕ → τ)

@[simp]
theorem put_put : (contents.put ptr held buffer shared).put ptr held' buffer' shared' =
    contents.put ptr held' buffer' shared' := by
  simp [put]

theorem put_self : contents.put ptr (contents.held ptr) (contents.buffers ptr) contents.shared = contents := by
  simp [put]

@[simp]
theorem held_put : (contents.put ptr held buffer shared).held ptr = held := update_self _ _ _

@[simp]
theorem buffers_put : (contents.put ptr held buffer shared).buffers ptr = buffer := update_self _ _ _

@[simp]
theorem shared_put : (contents.put ptr held buffer shared).shared = shared := rfl

theorem held_process (code : ℕ → NetworkFunction σ τ) (pkt : Packet) : (contents.process code ptr pkt).held ptr =
    (Holding.run code (contents.held ptr) pkt contents.shared).2.2.1 :=
  update_self _ _ _

theorem buffers_call (entry : NetworkFunction σ τ → σ → τ → σ × τ) (code : ℕ → NetworkFunction σ τ) :
    (contents.call entry code ptr held).buffers ptr = contents.buffers ptr :=
  update_self _ _ _

/-- The replay neither sends anything nor changes the code. -/
theorem fixed_replay (code : ℕ → NetworkFunction σ τ) :
    (contents.replay code ptr).cargo = contents.cargo ∧ (contents.replay code ptr).code = contents.code := by
  have hfold : ∀ (buffer : List Packet) (contents : Contents σ τ),
      (buffer.foldl (fun contents pkt ↦ contents.process code ptr pkt) contents).cargo = contents.cargo ∧
        (buffer.foldl (fun contents pkt ↦ contents.process code ptr pkt) contents).code = contents.code := by
    intro buffer
    induction buffer with
    | nil => exact fun _ ↦ ⟨rfl, rfl⟩
    | cons pkt _ ih => exact fun contents ↦ ih (contents.process code ptr pkt)
  exact hfold _ contents

@[simp]
theorem send_nil : contents.send [] = contents := by
  rw [send, List.append_nil]

end

variable (contents : Contents σ τ) {ptr other : ℕ}

theorem held_put_of_ne (hne : other ≠ ptr) (held : Holding σ) (buffer : List Packet) (shared : ℕ → τ) :
    (contents.put ptr held buffer shared).held other = contents.held other :=
  update_of_ne hne _ _

theorem buffers_put_of_ne (hne : other ≠ ptr) (held : Holding σ) (buffer : List Packet)
    (shared : ℕ → τ) : (contents.put ptr held buffer shared).buffers other = contents.buffers other :=
  update_of_ne hne _ _

/-- The replay of one actor leaves the others alone. -/
theorem replay_of_ne (code : ℕ → NetworkFunction σ τ) (hne : other ≠ ptr) :
    (contents.replay code ptr).held other = contents.held other ∧
      (contents.replay code ptr).buffers other = contents.buffers other := by
  have hfold : ∀ (pkts : List Packet) (contents : Contents σ τ),
      (pkts.foldl (fun contents pkt ↦ contents.process code ptr pkt) contents).held other =
          contents.held other ∧
        (pkts.foldl (fun contents pkt ↦ contents.process code ptr pkt) contents).buffers other =
          contents.buffers other := by
    intro pkts
    induction pkts with
    | nil => exact fun _ ↦ ⟨rfl, rfl⟩
    | cons pkt _ ih =>
      intro contents
      obtain ⟨hheld, hbuffers⟩ := ih (contents.process code ptr pkt)
      rw [List.foldl_cons, hheld, hbuffers]
      exact ⟨held_put_of_ne _ hne _ _ _, buffers_put_of_ne _ hne _ _ _⟩
  obtain ⟨hheld, hbuffers⟩ := hfold (contents.buffers ptr) contents
  rw [replay, held_put_of_ne _ hne, buffers_put_of_ne _ hne]
  exact ⟨hheld, hbuffers⟩

end Contents

namespace Runtime

variable {σ τ : Type}

/-- The flow states of an actor. -/
def flowStates (rt : Runtime σ τ) (ptr : ℕ) : Holding σ := rt.nfs.view (rt.actors ptr).chain

/-- The messages with flow states that a runtime has sent. -/
def cargo (rt : Runtime σ τ) : List (UInt32 × Message σ) :=
  rt.outbox.filter fun entry ↦ entry.2.body.carriesStates

def contents (rt : Runtime σ τ) : Contents σ τ where
  code := rt.nfs.code
  held ptr := if ptr ∈ rt.allocator.outstanding then rt.flowStates ptr else []
  buffers ptr := if ptr ∈ rt.allocator.outstanding then (rt.actors ptr).buffer.map Prod.snd else []
  shared := rt.nfs.shared
  cargo := rt.cargo

variable {rt : Runtime σ τ} {ptr : ℕ} {lost : ℕ → Multiset ℕ}
  {operation : NfInstance σ τ → ℕ → NfInstance σ τ} {entry : NetworkFunction σ τ → σ → τ → σ × τ}

theorem held_contents (hlive : rt.ledger.Live ptr) : rt.contents.held ptr = rt.flowStates ptr := if_pos hlive

theorem buffers_contents (hlive : rt.ledger.Live ptr) :
    rt.contents.buffers ptr = (rt.actors ptr).buffer.map Prod.snd :=
  if_pos hlive

theorem actors_modifyActor_of_ne (rt : Runtime σ τ) {other : ℕ} (change : FlowActor → FlowActor)
    (hne : other ≠ ptr) : (rt.modifyActor ptr change).actors other = rt.actors other :=
  update_of_ne hne _ _

/-- The contents and the cells of `collective_buffer_` do not change. -/
structure Inert (rt rt' : Runtime σ τ) : Prop where
  nfs : rt'.nfs = rt.nfs
  allocator : rt'.allocator = rt.allocator
  chain : ∀ ptr, (rt'.actors ptr).chain = (rt.actors ptr).chain
  buffer : ∀ ptr, (rt'.actors ptr).buffer = (rt.actors ptr).buffer
  replication : ∀ ptr, (rt'.actors ptr).replicationState = (rt.actors ptr).replicationState
  cells : rt'.collectiveBuffer = rt.collectiveBuffer
  cargo : rt'.cargo = rt.cargo

namespace Inert

variable {rt rt' rt'' : Runtime σ τ} {ptr : ℕ}

theorem refl (rt : Runtime σ τ) : rt.Inert rt := ⟨rfl, rfl, fun _ ↦ rfl, fun _ ↦ rfl, fun _ ↦ rfl, rfl, rfl⟩

theorem trans (h : rt.Inert rt') (h' : rt'.Inert rt'') : rt.Inert rt'' :=
  ⟨h'.nfs.trans h.nfs, h'.allocator.trans h.allocator, fun ptr ↦ (h'.chain ptr).trans (h.chain ptr),
    fun ptr ↦ (h'.buffer ptr).trans (h.buffer ptr), fun ptr ↦ (h'.replication ptr).trans (h.replication ptr),
    h'.cells.trans h.cells, h'.cargo.trans h.cargo⟩

theorem contents_eq (h : rt.Inert rt') : rt'.contents = rt.contents := by
  simp only [contents, flowStates, h.nfs, h.allocator, h.chain, h.buffer, h.cargo]

theorem of_fields (hnfs : rt'.nfs = rt.nfs) (hallocator : rt'.allocator = rt.allocator)
    (hactors : rt'.actors = rt.actors) (hcells : rt'.collectiveBuffer = rt.collectiveBuffer)
    (hcargo : rt'.cargo = rt.cargo) : rt.Inert rt' :=
  ⟨hnfs, hallocator, fun _ ↦ by rw [hactors], fun _ ↦ by rw [hactors], fun _ ↦ by rw [hactors], hcells, hcargo⟩

theorem modifyActor (rt : Runtime σ τ) (ptr : ℕ) {change : FlowActor → FlowActor}
    (hchain : (change (rt.actors ptr)).chain = (rt.actors ptr).chain)
    (hbuffer : (change (rt.actors ptr)).buffer = (rt.actors ptr).buffer)
    (hreplication : (change (rt.actors ptr)).replicationState = (rt.actors ptr).replicationState) :
    rt.Inert (rt.modifyActor ptr change) := by
  refine ⟨rfl, rfl, ?_, ?_, ?_, rfl, rfl⟩ <;> intro other <;> by_cases heq : other = ptr <;>
    simp [Runtime.modifyActor, *]

theorem addTail (rt : Runtime σ τ) (head : ListNode) (ptr : ℕ) : rt.Inert (rt.addTail head ptr) :=
  of_fields rfl rfl rfl rfl rfl

theorem bind (rt : Runtime σ τ) (key : FlowKey) (ptr : ℕ) : rt.Inert (rt.bind key ptr) :=
  of_fields rfl rfl rfl rfl rfl

theorem setTimer (rt : Runtime σ τ) (ptr : ℕ) (kind : TimerKind) (timer : FlowActor → ActorTimer) :
    rt.Inert (rt.modifyActor ptr fun actor ↦ actor.setTimer kind (timer actor)) := by
  apply modifyActor <;> cases kind <;> rfl

theorem invalidate (rt : Runtime σ τ) (ptr : ℕ) (kind : TimerKind) : rt.Inert (rt.invalidate ptr kind) :=
  setTimer rt ptr kind _

theorem post (rt : Runtime σ τ) (sent : Bool) (dest sendActorId recvActorId : UInt32) (body : MessageBody σ)
    (hbody : body.carriesStates = false) : rt.Inert (rt.post sent dest sendActorId recvActorId body) := by
  refine of_fields rfl rfl rfl rfl ?_
  cases sent <;> simp [Runtime.cargo, Runtime.post, hbody]

theorem ask (rt : Runtime σ τ) (sent : Bool) (ptr : ℕ) {request : Request σ}
    (hbody : request.body.carriesStates = false) : rt.Inert (rt.ask sent ptr request) :=
  (post rt sent _ _ _ _ hbody).trans (setTimer _ ptr _ _)

theorem abandonMigration (rt : Runtime σ τ) (ptr : ℕ) : rt.Inert (rt.abandonMigration ptr) := by
  have hnormal : rt.Inert (rt.enter ptr .normalProcessing) := modifyActor rt ptr rfl rfl rfl
  exact (hnormal.trans (addTail _ .activeFlows ptr)).trans (of_fields rfl rfl rfl rfl rfl)

theorem departed (rt : Runtime σ τ) (ptr : ℕ) : rt.Inert (rt.departed ptr) := of_fields rfl rfl rfl rfl rfl

/-- A removed actor keeps its chain and its buffer until it is handed out again. -/
theorem removed (rt : Runtime σ τ) (ptr : ℕ) : rt.Inert { rt.removed ptr with allocator := rt.allocator } := by
  unfold Runtime.removed
  dsimp only
  split
  · exact of_fields rfl rfl rfl rfl rfl
  · have hdisarmed := ((invalidate rt ptr .idle).trans (invalidate _ ptr .migration)).trans
      (invalidate _ ptr .replication)
    have hfreed {base : Runtime σ τ} : base.Inert (base.modifyActor ptr fun actor ↦
        { actor with actorId := invalidFlowActorId }) := modifyActor base ptr rfl rfl rfl
    have hboth := hdisarmed.trans hfreed
    exact ⟨rfl, rfl, hboth.chain, hboth.buffer, hboth.replication, rfl, rfl⟩

theorem updateRoute {env : Environment σ} {key : FlowKey} {newOutputRtId : UInt32}
    {updated : UInt32 × Runtime σ τ} (h : rt.updateRoute env key newOutputRtId = some updated) :
    rt.Inert updated.2 := by
  unfold Runtime.updateRoute at h
  split at h
  · cases h
    exact refl rt
  · obtain ⟨peer, -, rfl⟩ := map_eq_some_iff.1 h
    dsimp only
    apply modifyActor <;> rfl

end Inert

section

variable {rt rt' base : Runtime σ τ} {input : Input σ} {sent : Bool} {request : Request σ}

theorem contents_modifyActor (rt : Runtime σ τ) (ptr : ℕ) {change : FlowActor → FlowActor}
    (hchain : (change (rt.actors ptr)).chain = (rt.actors ptr).chain)
    (hbuffer : (change (rt.actors ptr)).buffer = (rt.actors ptr).buffer) :
    (rt.modifyActor ptr change).contents = rt.contents := by
  have hactors (other : ℕ) : ((rt.modifyActor ptr change).actors other).chain = (rt.actors other).chain ∧
      ((rt.modifyActor ptr change).actors other).buffer = (rt.actors other).buffer := by
    by_cases heq : other = ptr <;> simp [modifyActor, *]
  simp only [contents, flowStates, hactors]
  rfl

theorem contents_post (rt : Runtime σ τ) (sent : Bool) (dest sendActorId recvActorId : UInt32)
    {body : MessageBody σ} (hbody : body.carriesStates = true) :
    (rt.post sent dest sendActorId recvActorId body).contents = rt.contents.send
      (if sent then [(dest, ⟨sendActorId, recvActorId, rt.nextMsgId, body⟩)] else []) := by
  refine Contents.ext rfl rfl rfl rfl ?_
  cases sent <;> simp [contents, cargo, post, Contents.send, hbody]

theorem contents_ask (rt : Runtime σ τ) (ptr : ℕ) (hbody : request.body.carriesStates = true) :
    (rt.ask true ptr request).contents = rt.contents.send
      [(request.dest, ⟨request.sendActorId, request.recvActorId, rt.nextMsgId, request.body⟩)] :=
  (Inert.setTimer _ ptr _ _).contents_eq.trans (contents_post rt true _ _ _ hbody)

theorem Tallies.inert (h : rt.Tallies input rt') : rt.Inert rt' := by
  cases h with
  | migrateTo | recover | addStorage | removeStorage =>
    simp only [Runtime.migrateTo, Runtime.recover, Runtime.addStorage, Runtime.removeStorage]
    split <;> exact .of_fields rfl rfl rfl rfl rfl
  | _ => exact .of_fields rfl rfl rfl rfl rfl

theorem Abandons.inert (h : rt.Abandons input base ptr) : rt.Inert (base.abandonMigration ptr) := by
  cases h with
  | refuse => exact (Inert.departed rt ptr).trans (.abandonMigration _ ptr)
  | _ => exact (Inert.invalidate rt ptr .migration).trans (.abandonMigration _ ptr)

theorem Prepares.inert (h : rt.Prepares input base sent ptr request) : rt.Inert base := by
  have hinvalidate := Inert.invalidate rt ptr .migration
  cases h with
  | depart => exact (Inert.departed rt ptr).trans (.modifyActor _ ptr rfl rfl rfl)
  | recover => exact .of_fields rfl rfl rfl rfl rfl
  | recoverAgain => exact .invalidate rt ptr .replication
  | stay =>
    have hnumbered : rt.Inert { rt with nextMsgId := rt.nextMsgId + 1 } := .of_fields rfl rfl rfl rfl rfl
    exact (hnumbered.trans (.invalidate _ ptr .migration)).trans (.modifyActor _ ptr rfl rfl rfl)
  | _ => exact hinvalidate.trans (.modifyActor _ ptr rfl rfl rfl)

end

/-! ## Changes to the contents of one actor -/

/-- A loop over the chain of a live actor leaves the flow states of others alone. -/
theorem contents_nfs {nfs : NfTable σ τ} {held : Holding σ} {shared : ℕ → τ}
    (hslots : rt.ledger.SlotsAccounted lost) (hlive : rt.ledger.Live ptr)
    (hturns : rt.nfs.Turns nfs (rt.actors ptr).chain held shared) :
    { rt with nfs := nfs }.contents = rt.contents.put ptr held (rt.contents.buffers ptr) shared := by
  refine Contents.ext hturns.rewrites.code (funext fun other ↦ ?_) ?_ hturns.shared rfl
  · change (if other ∈ rt.allocator.outstanding then nfs.view (rt.actors other).chain else []) =
      update rt.contents.held ptr held other
    by_cases heq : other = ptr
    · rw [heq, update_self, hturns.view]
      exact if_pos hlive
    · rw [update_of_ne heq]
      change _ = if other ∈ rt.allocator.outstanding then rt.nfs.view (rt.actors other).chain else []
      split
      · next hother => exact hturns.rewrites.view_eq (hslots.disjoint_chain hlive hother heq)
      · rfl
  · exact (update_eq_self ptr rt.contents.buffers).symm

theorem contents_buffer {change : FlowActor → FlowActor} (hlive : rt.ledger.Live ptr)
    (hchain : (change (rt.actors ptr)).chain = (rt.actors ptr).chain) :
    (rt.modifyActor ptr change).contents = rt.contents.put ptr (rt.contents.held ptr)
      ((change (rt.actors ptr)).buffer.map Prod.snd) rt.contents.shared := by
  refine Contents.ext rfl (funext fun other ↦ ?_) (funext fun other ↦ ?_) rfl rfl
  · change _ = update rt.contents.held ptr _ other
    rw [update_eq_self]
    change (if other ∈ rt.allocator.outstanding then
      rt.nfs.view ((rt.modifyActor ptr change).actors other).chain else []) = _
    by_cases heq : other = ptr
    · rw [heq, actors_modifyActor, hchain]
      rfl
    · rw [actors_modifyActor_of_ne rt change heq]
      rfl
  · change (if other ∈ rt.allocator.outstanding then
      ((rt.modifyActor ptr change).actors other).buffer.map Prod.snd else []) =
        update rt.contents.buffers ptr _ other
    by_cases heq : other = ptr
    · rw [heq, actors_modifyActor, update_self]
      exact if_pos hlive
    · rw [actors_modifyActor_of_ne rt change heq, update_of_ne heq]
      rfl

variable (hslots : rt.ledger.SlotsAccounted lost) (hlive : rt.ledger.Live ptr)

include hslots hlive

theorem contents_runChain (pkt : Packet) :
    { rt with nfs := (NfTable.runChain (rt.actors ptr).chain pkt rt.nfs).2.2 }.contents =
      rt.contents.process rt.nfs.code ptr pkt := by
  have hnodup : (rt.actors ptr).chain.Nodup := hslots.nodup_chain hlive
  obtain ⟨-, -, hturns⟩ := NfTable.runChain_turns hnodup pkt rt.nfs
  rw [contents_nfs hslots hlive hturns, Contents.process, held_contents hlive]
  rfl

theorem contents_forChain (hacts : NfInstance.Acts operation entry) :
    { rt with nfs := rt.nfs.forChain operation (rt.actors ptr).chain }.contents =
      rt.contents.call entry rt.nfs.code ptr (rt.contents.held ptr) := by
  have hnodup : (rt.actors ptr).chain.Nodup := hslots.nodup_chain hlive
  have hturns := NfTable.forChain_turns hacts hnodup rt.nfs
  rw [contents_nfs hslots hlive hturns, Contents.call, held_contents hlive]
  rfl

theorem contents_loadChain (hacts : NfInstance.Acts operation entry) (states : ℕ → σ) :
    { rt with nfs := NfTable.loadChain operation states 0 (rt.actors ptr).chain rt.nfs }.contents =
      rt.contents.call entry rt.nfs.code ptr
        (Holding.load states 0 ((rt.actors ptr).chain.map ChainSlot.nf)) := by
  have hnodup : (rt.actors ptr).chain.Nodup := hslots.nodup_chain hlive
  have hturns := NfTable.loadChain_turns hacts states 0 hnodup rt.nfs
  rw [contents_nfs hslots hlive hturns, Contents.call]
  rfl

end Runtime

end NfvActor.Actor
