import Mathlib.Tactic
import NfvActor.Actor.Contents

/-!
# What a step does to the contents

The handlers that create, feed, load and remove flow actors are followed through the projection to the
contents, and `Runtime.step_change` collects them: one list of cases for every step of a runtime.
-/

namespace NfvActor.Actor

open NfvActor.Foundation
open NfvActor.Reliable (Packet)
open Function
open Option (bind_eq_some_iff map_eq_some_iff)

namespace Holding

variable {σ τ : Type}

/-- All flow states have just been written by `nf_init_fs`. -/
def Initial (code : ℕ → NetworkFunction σ τ) (held : Holding σ) : Prop :=
  ∀ entry ∈ held, ∃ garbage, entry.2 = (code entry.1).nfInitFs garbage

theorem each_keep (code : ℕ → NetworkFunction σ τ) (held : Holding σ) (shared : ℕ → τ) :
    each (fun _ state shared ↦ (state, shared)) code held shared = (held, shared) := by
  induction held generalizing shared with
  | nil => rfl
  | cons _ _ ih => simp only [each, update_eq_self, ih]

end Holding

namespace Runtime

variable {σ τ : Type} {rt rt' : Runtime σ τ} {ptr : ℕ}

variable {key : FlowKey} {replication : ReplicationState} {inputHeader outputHeader : EtherHeader}
  {env : Environment σ} {pkt : Packet} {lost : ℕ → Multiset ℕ} {states : ℕ → σ}
  {senderRtid requestMsgId : UInt32} {message : Message σ}

/-- The functions whose slots a new actor gets: all of the service chain, or none. -/
def newChain (rt : Runtime σ τ) : List ℕ :=
  (FreeSlots.take rt.serviceChain [] rt.nfs.free).1.map ChainSlot.nf

/-- A new actor takes free slots; the flow states of others do not change. -/
theorem contents_opened {opening : Opening} (horderly : rt.ledger.Orderly) (hgrants : rt.Grants opening) :
    (rt.opened opening).contents =
        rt.contents.put opening.ptr ((rt.opened opening).flowStates opening.ptr) [] rt.contents.shared ∧
      (rt.opened opening).nfs.code = rt.nfs.code ∧
      ((rt.opened opening).flowStates opening.ptr).map Prod.fst = rt.newChain ∧
      (opening.initialise = true → ((rt.opened opening).flowStates opening.ptr).Initial rt.nfs.code) := by
  obtain ⟨-, -, houtstanding⟩ := horderly.sound.pool.pop hgrants.1
  obtain ⟨lost, hslots⟩ := horderly.slots
  have halloc : (rt.opened opening).allocator.outstanding = insert opening.ptr rt.allocator.outstanding :=
    houtstanding
  have hactors : ∀ other, other ≠ opening.ptr → (rt.opened opening).actors other = rt.actors other :=
    fun other hother ↦ update_of_ne hother _ _
  have hchain : ((rt.opened opening).actors opening.ptr).chain =
      (NfTable.allocateChain opening.initialise rt.serviceChain [] rt.nfs).1 :=
    congrArg FlowActor.chain (actors_opened rt opening)
  obtain ⟨hrewrites, hshared⟩ := NfTable.allocateChain_rewrites opening.initialise rt.serviceChain [] rt.nfs
  refine ⟨Contents.ext hrewrites.code (funext fun other ↦ ?_) (funext fun other ↦ ?_) hshared rfl,
    hrewrites.code, ?_, ?_⟩
  · change (if other ∈ (rt.opened opening).allocator.outstanding then (rt.opened opening).flowStates other
      else []) = update rt.contents.held opening.ptr ((rt.opened opening).flowStates opening.ptr) other
    by_cases heq : other = opening.ptr
    · rw [heq, update_self, halloc]
      exact if_pos (Finset.mem_insert_self _ _)
    · rw [update_of_ne heq, halloc]
      change _ = if other ∈ rt.allocator.outstanding then rt.flowStates other else []
      simp only [Finset.mem_insert, heq, false_or]
      split
      · next hother =>
        rw [flowStates, flowStates, hactors other heq]
        exact hrewrites.view_eq fun position hmem ↦ hslots.not_free hother hmem
      · rfl
  · change (if other ∈ (rt.opened opening).allocator.outstanding then
      ((rt.opened opening).actors other).buffer.map Prod.snd else []) =
        update rt.contents.buffers opening.ptr [] other
    by_cases heq : other = opening.ptr
    · rw [heq, update_self, actors_opened]
      exact ite_self _
    · rw [update_of_ne heq, halloc, hactors other heq]
      change _ = if other ∈ rt.allocator.outstanding then (rt.actors other).buffer.map Prod.snd else []
      simp only [Finset.mem_insert, heq, false_or]
  · rw [flowStates, NfTable.map_fst_view, hchain]
    exact congrArg _ (NfTable.allocateChain_free opening.initialise rt.serviceChain [] rt.nfs).1
  · intro hinitialise entry hmem
    obtain ⟨position, hposition, rfl⟩ := List.mem_map.1 hmem
    have hinitial := NfTable.allocateChain_initial rt.serviceChain [] rt.nfs
      (fun _ hmem ↦ absurd hmem List.not_mem_nil)
    rw [hchain, hinitialise] at hposition
    obtain ⟨garbage, hgarbage⟩ := hinitial position hposition
    refine ⟨garbage, ?_⟩
    rw [← hinitialise] at hgarbage
    rw [← hrewrites.code]
    exact hgarbage

theorem contents_removed (hpool : rt.allocator.IsPool) (hlive : rt.ledger.Live ptr)
    (hptr : ptr ≠ deadendFlowActor) :
    (rt.removed ptr).contents = rt.contents.put ptr [] [] rt.contents.shared := by
  have hinert := Inert.removed rt ptr
  have houtstanding : (rt.removed ptr).allocator.outstanding = rt.allocator.outstanding.erase ptr := by
    rw [removed, if_neg hptr]
    exact (hpool.push hlive).2.1
  refine Contents.ext (congrArg NfTable.code hinert.nfs) (funext fun other ↦ ?_) (funext fun other ↦ ?_)
    (congrArg NfTable.shared hinert.nfs) hinert.cargo
  · change (if other ∈ (rt.removed ptr).allocator.outstanding then
      (rt.removed ptr).nfs.view ((rt.removed ptr).actors other).chain else []) =
        update rt.contents.held ptr [] other
    rw [houtstanding]
    by_cases heq : other = ptr
    · rw [heq, update_self]
      exact if_neg (Finset.notMem_erase ptr _)
    · rw [update_of_ne heq, hinert.chain, hinert.nfs]
      simp only [Finset.mem_erase, ne_eq, heq, not_false_iff, true_and]
      rfl
  · change (if other ∈ (rt.removed ptr).allocator.outstanding then
      ((rt.removed ptr).actors other).buffer.map Prod.snd else []) = update rt.contents.buffers ptr [] other
    rw [houtstanding]
    by_cases heq : other = ptr
    · rw [heq, update_self]
      exact if_neg (Finset.notMem_erase ptr _)
    · rw [update_of_ne heq, hinert.buffer]
      simp only [Finset.mem_erase, ne_eq, heq, not_false_iff, true_and]
      rfl

/-- An actor takes a packet unless its route has changed or it is a migration target without a free cell. -/
def accepts (rt : Runtime σ τ) (ptr : ℕ) : Bool :=
  match (rt.actors ptr).currentState with
  | .migrationTarget => rt.collectiveBuffer.pop.isSome
  | .afterRouteChange => false
  | _ => true

/-- What a packet for an actor does to the contents. -/
inductive Fed (rt : Runtime σ τ) (ptr : ℕ) (pkt : Packet) : Contents σ τ → Prop
  | dropped : rt.accepts ptr = false → (rt.actors ptr).currentState.processes = false →
      Fed rt ptr pkt rt.contents
  | buffered : rt.accepts ptr = true → (rt.actors ptr).currentState = .migrationTarget →
      Fed rt ptr pkt (rt.contents.put ptr (rt.contents.held ptr) (rt.contents.buffers ptr ++ [pkt])
        rt.contents.shared)
  | processed (sent : List (UInt32 × Message σ)) : rt.accepts ptr = true →
      (rt.actors ptr).currentState.processes = true →
      (∀ entry ∈ sent, ∀ states, entry.2.body ≠ .migrateFlowState states) →
      Fed rt ptr pkt ((rt.contents.process rt.nfs.code ptr pkt).send sent)

theorem accepts_of_processes (h : (rt.actors ptr).currentState.processes = true) : rt.accepts ptr = true := by
  unfold accepts
  cases hstate : (rt.actors ptr).currentState <;> simp_all [FlowState.processes]

theorem contents_ran (hslots : rt.ledger.SlotsAccounted lost) (hlive : rt.ledger.Live ptr) (pkt : Packet) :
    (rt.ran ptr pkt).contents = rt.contents.process rt.nfs.code ptr pkt :=
  (contents_modifyActor _ ptr rfl rfl).trans (contents_runChain hslots hlive pkt)

theorem pktMsg_fed (hslots : rt.ledger.SlotsAccounted lost) (hlive : rt.ledger.Live ptr)
    (h : rt.pktMsg env ptr pkt = some rt') : rt.Fed ptr pkt rt'.contents := by
  have hcounted : (rt.counted ptr).contents = rt.contents := contents_modifyActor rt ptr rfl rfl
  have hran := contents_ran hslots hlive pkt
  have hprocessed (sent) (hprocesses : (rt.actors ptr).currentState.processes = true) :=
    @Fed.processed _ _ rt ptr pkt sent (accepts_of_processes hprocesses) hprocesses
  cases pktMsg_takes h with
  | full hstate hpop =>
    exact hcounted.symm ▸ .dropped (by simp [accepts, hstate, hpop]) (by rw [hstate]; rfl)
  | keep cell ring hstate hpop =>
    have hfed : rt.Fed ptr pkt _ := .buffered (by simp [accepts, hstate, hpop]) hstate
    rw [contents_buffer (by exact hlive) rfl]
    rw [buffers_contents hlive] at hfed
    simpa [counted] using hcounted ▸ hfed
  | late hstate => exact .dropped (by simp [accepts, hstate]) (by rw [hstate]; rfl)
  | emit _ hprocesses =>
    have hfed := hprocessed [] hprocesses (by simp)
    rw [Contents.send_nil, ← hran] at hfed
    exact hfed
  | disconnect _ hprocesses =>
    have hfed := hprocessed [] hprocesses (by simp)
    rw [Contents.send_nil, ← hran] at hfed
    rw [contents_modifyActor _ ptr rfl rfl]
    exact hfed
  | replicate dest hprocesses =>
    rw [contents_post _ _ _ _ _ rfl]
    refine hran.symm ▸ hprocessed _ hprocesses fun entry hmem states ↦ ?_
    split at hmem
    · simp [List.mem_singleton.1 hmem]
    · cases hmem

theorem repFsPktMsg_contents (hslots : rt.ledger.SlotsAccounted lost) (hlive : rt.ledger.Live ptr)
    (h : rt.repFsPktMsg ptr states pkt = some rt') :
    ((rt.actors ptr).replicationState ≠ .isReplica ∧ rt' = rt) ∨
      (rt.actors ptr).replicationState = .isReplica ∧ rt'.gb = rt.gb ++ [(pkt, 1)] ∧
      rt'.contents = rt.contents.put ptr
        (Holding.load states 0 ((rt.actors ptr).chain.map ChainSlot.nf)) (rt.contents.buffers ptr)
        rt.contents.shared := by
  refine (repFsPktMsg_cases h).imp_right ?_
  rintro ⟨hreplica, rfl⟩
  have hloaded := contents_loadChain hslots hlive .keep states
  rw [Contents.call, Holding.each_keep] at hloaded
  exact ⟨hreplica, rfl, (contents_modifyActor _ ptr rfl rfl).trans hloaded⟩

theorem replayBuffer_contents (buffer : List (ℕ × Packet)) (hslots : rt.ledger.SlotsAccounted lost)
    (hlive : rt.ledger.Live ptr) (h : rt.replayBuffer ptr buffer = some rt') :
    ∃ result, result = (buffer.map Prod.snd).foldl
        (fun contents pkt ↦ contents.process rt.nfs.code ptr pkt) rt.contents ∧
      rt'.contents = result.put ptr (result.held ptr) [] result.shared ∧ rt'.nfs.code = rt.nfs.code := by
  induction buffer generalizing rt with
  | nil =>
    cases h
    exact ⟨rt.contents, rfl, contents_buffer hlive rfl, rfl⟩
  | cons cell _ ih =>
    obtain ⟨mid, hmid, hrest⟩ := bind_eq_some_iff.1 h
    obtain ⟨_, _, -, rfl⟩ := replayPacket_eq hmid
    have hledger := ledger_ran rt ptr cell.2
    have hcode : (rt.ran ptr cell.2).nfs.code = rt.nfs.code :=
      (NfTable.runChain_turns (hslots.nodup_chain hlive) cell.2 rt.nfs).2.2.rewrites.code
    obtain ⟨result, hresult, hlast, hcode'⟩ := ih (by exact hledger ▸ hslots) (by exact hledger ▸ hlive) hrest
    have hcontents := contents_ran hslots hlive cell.2
    refine ⟨result, hresult.trans ?_, hlast, hcode'.trans hcode⟩
    rw [List.map_cons, List.foldl_cons, ← hcontents, ← hcode]
    rfl

theorem contents_arrive {sent : Bool} (hslots : rt.ledger.SlotsAccounted lost) (hlive : rt.ledger.Live ptr)
    (h : (rt.arriving sent ptr senderRtid message states).replayBuffer ptr (rt.actors ptr).buffer = some rt') :
    rt'.contents = (rt.contents.call (fun code state shared ↦ code.nfFlowArrive state shared .migrateIn)
      rt.nfs.code ptr (Holding.load states 0 ((rt.actors ptr).chain.map ChainSlot.nf))).replay
        rt.nfs.code ptr := by
  have hnodup : (rt.actors ptr).chain.Nodup := hslots.nodup_chain hlive
  have hloaded := contents_loadChain hslots hlive (.nfFlowArrive .migrateIn) states
  have hcode := (NfTable.loadChain_turns (.nfFlowArrive .migrateIn) states 0 hnodup rt.nfs).rewrites.code
  have hledger := ledger_arriving rt sent ptr senderRtid message states
  have hinert {nfs : NfTable σ τ} (hnfs : NfTable.loadChain (fun nf slot ↦ nf.nfFlowArrive slot .migrateIn)
      states 0 (rt.actors ptr).chain rt.nfs = nfs) : Inert { rt with nfs := nfs }
        (rt.arriving sent ptr senderRtid message states) := by
    have hentered {base : Runtime σ τ} : base.Inert (base.enter ptr .normalProcessing) :=
      .modifyActor base ptr rfl rfl rfl
    rw [← hnfs]
    refine (Inert.post _ sent senderRtid (rt.actors ptr).actorId message.sendActorId
      (.migrateFlowStateResponse message.msgId) rfl).trans (hentered.trans ?_)
    exact .of_fields rfl rfl rfl rfl rfl
  obtain ⟨result, hresult, hlast, -⟩ := replayBuffer_contents _
    (hledger ▸ hslots.touch (.arrive rt.ledger ptr)) (hledger ▸ hlive) h
  rw [(hinert rfl).contents_eq, hloaded, (hinert rfl).nfs, hcode, ← buffers_contents hlive] at hresult
  rw [hlast, hresult, Contents.replay, Contents.buffers_call]

theorem contents_leave {gone : Runtime σ τ} {status : LeaveStatus}
    {operation : NfInstance σ τ → ℕ → NfInstance σ τ}
    (hacts : NfInstance.Acts operation fun code state shared ↦ code.nfFlowLeave state shared status)
    (hslots : rt.ledger.SlotsAccounted lost) (hpool : rt.allocator.IsPool) (hlive : rt.ledger.Live ptr)
    (hptr : ptr ≠ deadendFlowActor)
    (hinert : Inert { rt with nfs := rt.nfs.forChain operation (rt.actors ptr).chain } gone) :
    (gone.removed ptr).contents = rt.contents.leave status rt.nfs.code ptr := by
  have hlive' : gone.ledger.Live ptr := by
    rw [Ledger.Live, show gone.ledger.allocator = rt.allocator from hinert.allocator]
    exact hlive
  rw [contents_removed (hinert.allocator ▸ hpool) hlive' hptr, hinert.contents_eq,
    contents_forChain hslots hlive hacts, Contents.call, Contents.put_put, Contents.shared_put]
  rfl

theorem contents_settled (hslots : rt.ledger.SlotsAccounted lost) (hpool : rt.allocator.IsPool)
    (hlive : rt.ledger.Live ptr) (hptr : ptr ≠ deadendFlowActor) :
    ((rt.settled ptr).removed ptr).contents = rt.contents.leave .migrateOut rt.nfs.code ptr := by
  have hnormal : (rt.invalidate ptr .migration).Inert ((rt.invalidate ptr .migration).enter ptr
    .normalProcessing) := .modifyActor _ ptr rfl rfl rfl
  have hbase := (Inert.invalidate rt ptr .migration).trans hnormal
  refine contents_leave (.nfFlowLeave .migrateOut) hslots hpool hlive hptr
    (Inert.trans ?_ (.invalidate _ ptr .idle))
  exact ⟨rfl, hbase.allocator, hbase.chain, hbase.buffer, hbase.replication, hbase.cells, hbase.cargo⟩

theorem contents_discardBuffer (hlive : rt.ledger.Live ptr) :
    (rt.discardBuffer ptr).contents = rt.contents.put ptr (rt.contents.held ptr) [] rt.contents.shared := by
  unfold discardBuffer
  dsimp only
  rw [contents_buffer (by exact hlive) rfl]
  rfl

theorem contents_left (hslots : rt.ledger.SlotsAccounted lost) (hpool : rt.allocator.IsPool)
    (hlive : rt.ledger.Live ptr) (hptr : ptr ≠ deadendFlowActor) :
    ((rt.left ptr).removed ptr).contents = rt.contents.leave .idle rt.nfs.code ptr := by
  have hidle := Inert.invalidate rt ptr .idle
  have hledger := ledger_drained rt ptr
  have hallocator : (rt.drained ptr).allocator = rt.allocator := congrArg Ledger.allocator hledger
  have hnfs := nfs_drained rt ptr
  obtain ⟨buffer, hbuffer⟩ : ∃ buffer, (rt.drained ptr).contents =
      rt.contents.put ptr (rt.contents.held ptr) buffer rt.contents.shared := by
    unfold drained
    split
    · refine ⟨[], ?_⟩
      rw [contents_discardBuffer (by exact hlive), hidle.contents_eq]
    · refine ⟨rt.contents.buffers ptr, ?_⟩
      rw [hidle.contents_eq, Contents.put_self]
  have hchain : ((rt.drained ptr).actors ptr).chain = (rt.actors ptr).chain := by
    unfold drained
    split
    · rw [discardBuffer, actors_modifyActor]
      exact hidle.chain ptr
    · exact hidle.chain ptr
  have hinert {nfs : NfTable σ τ} (hleft : leaveChain rt.nfs (rt.actors ptr).chain = nfs) :
      Inert { rt.drained ptr with nfs := nfs } (rt.left ptr) := by
    rw [← hleft]
    exact .refl _
  rw [contents_leave (.leaveAndDeallocate .idle) (hledger ▸ hslots.touch (.disarm rt.ledger ptr .idle))
    (hallocator ▸ hpool) (hledger ▸ hlive) hptr (hinert (by rw [hnfs, hchain]; rfl)), hbuffer, hnfs,
      Contents.leave, Contents.put_put,
    Contents.held_put, Contents.shared_put]
  rfl

theorem contents_activateReplica (rt : Runtime σ τ) (ptr : ℕ) :
    ((rt.invalidate ptr .replication).activateReplica ptr).contents = rt.contents := by
  have hactive : ((rt.invalidate ptr .replication).modifyActor ptr fun actor ↦
      { actor with replicationState := .noReplica }).contents = _ := contents_modifyActor _ ptr rfl rfl
  exact hactive.trans (Inert.invalidate rt ptr .replication).contents_eq

theorem contents_recovered (hslots : rt.ledger.SlotsAccounted lost) (hlive : rt.ledger.Live ptr) :
    (rt.recovered ptr).contents = rt.contents.call
      (fun code state shared ↦ code.nfFlowArrive state shared .recoverOn) rt.nfs.code ptr
        (rt.contents.held ptr) := by
  have harrived := contents_forChain hslots hlive
    (.nfFlowArrive .recoverOn : NfInstance.Acts (fun (nf : NfInstance σ τ) slot ↦
      nf.nfFlowArrive slot .recoverOn) _)
  rw [← harrived]
  exact contents_activateReplica { rt with nfs := _ } ptr

/-! ## The changes of a step -/

/-- What a step can do to the ledger and the contents. -/
inductive Change (rt : Runtime σ τ) : Input σ → Ledger → Contents σ τ → Prop
  | inert (input : Input σ) (ledger' : Ledger) : (∀ env pkt, input ≠ .packet env pkt) →
      (∀ ptr, (ledger'.cards ptr).replicationState = (rt.ledger.cards ptr).replicationState) →
      ledger'.allocator = rt.allocator → Change rt input ledger' rt.contents
  | packet (env : Environment σ) (pkt : Packet) (ptr : ℕ) (ledger' : Ledger) (contents' : Contents σ τ) :
      rt.htable (flowKeyOf pkt) = some ptr → rt.Fed ptr pkt contents' →
      ledger' = rt.ledger ∨
        (rt.actors ptr).replicationState = .haveReplica ∧ ledger' = rt.ledger.dropReplica ptr →
      Change rt (.packet env pkt) ledger' contents'
  | newFlow (env : Environment σ) (pkt : Packet) (ptr : ℕ) (ring : RingBuffer ℕ)
      (replication : ReplicationState) (held : Holding σ) (sent : List (UInt32 × Message σ)) :
      rt.htable (flowKeyOf pkt) = none → rt.allocator.pop = some (ptr, ring) →
      replication ≠ .isReplica → held.map Prod.fst = rt.newChain → held.Initial rt.nfs.code →
      (∀ entry ∈ sent, ∀ states, entry.2.body ≠ .migrateFlowState states) →
      Change rt (.packet env pkt)
        (rt.ledger.enroll ptr ring .activeFlows (flowKeyOf pkt) .normalProcessing replication)
        (((rt.contents.put ptr held [] rt.contents.shared).process rt.nfs.code ptr pkt).send sent)
  | newTarget (env : Environment σ) (senderRtid : UInt32) (message : Message σ)
      (inputHeader outputHeader : EtherHeader) (key : FlowKey) (ptr : ℕ) (ring : RingBuffer ℕ)
      (held : Holding σ) : message.recvActorId = coordinatorActorId →
      message.body = .createMigrationTargetActor inputHeader outputHeader key →
      rt.allocator.pop = some (ptr, ring) → held.map Prod.fst = rt.newChain →
      held.Initial rt.nfs.code →
      Change rt (.message env senderRtid message)
        (rt.ledger.enroll ptr ring .activeFlows key .migrationTarget .noReplica)
        (rt.contents.put ptr held [] rt.contents.shared)
  | newReplica (env : Environment σ) (senderRtid : UInt32) (message : Message σ)
      (inputHeader outputHeader : EtherHeader) (key : FlowKey) (states : ℕ → σ) (pkt : Packet) (ptr : ℕ)
      (ring : RingBuffer ℕ) (head : ℕ) : message.recvActorId = coordinatorActorId →
      message.body = .replication inputHeader outputHeader key states pkt → rt.htable key = none →
      rt.allocator.pop = some (ptr, ring) →
      Change rt (.message env senderRtid message)
        (rt.ledger.enroll ptr ring (.replicaFlows head) key .normalProcessing .isReplica)
        (rt.contents.put ptr (Holding.load states 0 rt.newChain) [] rt.contents.shared)
  | mirror (env : Environment σ) (senderRtid : UInt32) (message : Message σ)
      (inputHeader outputHeader : EtherHeader) (key : FlowKey) (states : ℕ → σ) (pkt : Packet) (ptr : ℕ) :
      message.recvActorId = coordinatorActorId →
      message.body = .replication inputHeader outputHeader key states pkt → rt.htable key = some ptr →
      (rt.actors ptr).replicationState = .isReplica →
      Change rt (.message env senderRtid message) rt.ledger (rt.contents.put ptr
        (Holding.load states 0 ((rt.actors ptr).chain.map ChainSlot.nf)) (rt.contents.buffers ptr)
        rt.contents.shared)
  | arrive (env : Environment σ) (senderRtid : UInt32) (message : Message σ) (ptr : ℕ) (states : ℕ → σ) :
      rt.ledger.Delivers message ptr → message.body = .migrateFlowState states →
      Change rt (.message env senderRtid message) (rt.ledger.arrive ptr)
        ((rt.contents.call (fun code state shared ↦ code.nfFlowArrive state shared .migrateIn)
          rt.nfs.code ptr (Holding.load states 0 ((rt.actors ptr).chain.map ChainSlot.nf))).replay
            rt.nfs.code ptr)
  | recovered (env : Environment σ) (senderRtid : UInt32) (message : Message σ) (ptr : ℕ) (succeed : UInt32) :
      rt.ledger.Delivers message ptr →
      message.body = .replicaRecoverResponse (rt.actors ptr).replicationTimer.requestMsgId succeed →
      Change rt (.message env senderRtid message) (rt.ledger.endRecovery ptr true)
        (rt.contents.call (fun code state shared ↦ code.nfFlowArrive state shared .recoverOn)
          rt.nfs.code ptr (rt.contents.held ptr))
  | notRecovered (env : Environment σ) (ptr : ℕ) (kind : TimerKind) (peer : PeerView) :
      ((rt.actors ptr).timer kind).msgType = .replicaRecoverTimeout →
      env.reliables (rt.actors ptr).inputHeader.destRtid = some peer → peer.connectionUp = false →
      Change rt (.fire env ptr kind) (rt.ledger.endRecovery ptr false) rt.contents
  | ship (env : Environment σ) (senderRtid : UInt32) (message : Message σ) (ptr : ℕ) (states : ℕ → σ) :
      rt.ledger.Delivers message ptr →
      (∃ succeed, message.body =
        .changeVswitchRouteResponse (rt.actors ptr).migrationTimer.requestMsgId succeed) →
      Holding.load states 0 ((rt.actors ptr).chain.map ChainSlot.nf) = rt.contents.held ptr →
      Change rt (.message env senderRtid message)
        (rt.ledger.request ptr .afterRouteChange ⟨rt.nextMsgId, .migrateFlowStateTimeout⟩)
        (rt.contents.send [(rt.migration.targetRtId, ⟨(rt.actors ptr).actorId,
          (rt.actors ptr).migrationTargetActorId, rt.nextMsgId, .migrateFlowState states⟩)])
  | expire (env : Environment σ) (ptr : ℕ) (kind : TimerKind) :
      ((rt.ledger.cards ptr).timer kind).Armed → ((rt.ledger.cards ptr).timer kind).msgType = .checkIdle →
      rt.Leaves ptr →
      Change rt (.fire env ptr kind) (((rt.ledger.disarm ptr .idle).release ptr).remove ptr)
        (rt.contents.leave .idle rt.nfs.code ptr)
  | complete (env : Environment σ) (senderRtid : UInt32) (message : Message σ) (ptr : ℕ) :
      rt.ledger.Delivers message ptr →
      message.body = .migrateFlowStateResponse (rt.actors ptr).migrationTimer.requestMsgId →
      Change rt (.message env senderRtid message) (rt.ledger.complete ptr)
        (rt.contents.leave .migrateOut rt.nfs.code ptr)

structure Opened (rt mid : Runtime σ τ) (key : FlowKey) (ptr : ℕ) (ring : RingBuffer ℕ) (head : ListNode)
    (state : FlowState) (replication : ReplicationState) : Prop where
  pop : rt.allocator.pop = some (ptr, ring)
  ledger : mid.ledger = rt.ledger.enroll ptr ring head key state replication
  contents : mid.contents = rt.contents.put ptr (mid.flowStates ptr) [] rt.contents.shared
  code : mid.nfs.code = rt.nfs.code
  chain : (mid.flowStates ptr).map Prod.fst = rt.newChain
  ecSchedulerBatch : mid.ecSchedulerBatch = rt.ecSchedulerBatch
  gb : mid.gb = rt.gb

namespace Opened

variable {mid : Runtime σ τ} {key : FlowKey} {ring : RingBuffer ℕ} {head : ListNode}
  {state : FlowState} {replication : ReplicationState}

theorem of_grants {opening : Opening} (horderly : rt.ledger.Orderly) (hgrants : rt.Grants opening) :
    rt.Opened (rt.opened opening) opening.key opening.ptr opening.ring opening.head opening.state
      opening.replication := by
  obtain ⟨hcontents, hcode, hchain, -⟩ := contents_opened horderly hgrants
  exact ⟨hgrants.1, ledger_opened rt opening, hcontents, hcode, hchain, rfl, rfl⟩

variable (h : rt.Opened mid key ptr ring head state replication)

include h

theorem live (hsound : rt.ledger.Sound) : mid.ledger.Live ptr := by
  rw [h.ledger]
  exact (hsound.live_enroll h.pop ptr).2 (.inl rfl)

theorem sound (hsound : rt.ledger.Sound) (hhead : head ≠ .actor deadendFlowActor) : mid.ledger.Sound := by
  rw [h.ledger]
  exact hsound.enroll h.pop hhead

theorem htable : mid.htable key = some ptr := by
  have hkey : mid.ledger.htable key = some ptr := by
    rw [h.ledger]
    exact update_self _ _ _
  exact hkey

theorem slots (hsound : rt.ledger.Sound) {lost : ℕ → Multiset ℕ} (hslots : rt.ledger.SlotsAccounted lost) :
    mid.ledger.SlotsAccounted lost := by
  rw [h.ledger]
  exact hslots.enroll hsound h.pop

theorem card : (mid.actors ptr).card = rt.ledger.admittedCard ptr key state replication := by
  rw [← cards_ledger, h.ledger, Ledger.cards_enroll, update_self]

theorem nfs : (mid.actors ptr).chain.map ChainSlot.nf = rt.newChain := by
  rw [← h.chain, flowStates, NfTable.map_fst_view]

end Opened

theorem Opens.change {input : Input σ} {opening : Opening} (horderly : rt.ledger.Orderly)
    (hgrants : rt.Grants opening) (h : rt.Opens input opening rt') : rt.Change input rt'.ledger rt'.contents := by
  obtain ⟨lost, hslots⟩ := horderly.slots
  have hinitial := (contents_opened horderly hgrants).2.2.2
  have hopened := Opened.of_grants horderly hgrants
  have hlive := hopened.live horderly.sound
  have hslots' := hopened.slots horderly.sound hslots
  cases h with
  | packet env pkt ptr ring inputRt replication r _ hnone hinput hreplica hpkt =>
    generalize rt.opened (rt.packetOpening ptr ring r env pkt inputRt replication) = mid at *
    obtain ⟨replication', hreplica', hledger⟩ : ∃ replication', replication' ≠ .isReplica ∧
        rt'.ledger = rt.ledger.enroll ptr ring .activeFlows (flowKeyOf pkt) .normalProcessing
          replication' := by
      rcases pktMsg_spec hpkt with hledger | ⟨-, hledger⟩
      · exact ⟨replication, hreplica, hledger.trans hopened.ledger⟩
      · refine ⟨.noReplica, by decide, hledger.trans ?_⟩
        rw [hopened.ledger]
        exact enroll_dropReplica ..
    have hstate : (mid.actors ptr).currentState = .normalProcessing := congrArg Card.currentState hopened.card
    have hfed : mid.Fed ptr pkt rt'.contents := pktMsg_fed hslots' hlive hpkt
    rw [hledger]
    generalize rt'.contents = contents' at hfed ⊢
    cases hfed with
    | dropped _ hprocesses =>
      rw [hstate] at hprocesses
      exact absurd hprocesses (by decide)
    | buffered _ htarget =>
      rw [hstate] at htarget
      exact absurd htarget (by decide)
    | processed sent _ _ hsent =>
      rw [hopened.contents, hopened.code]
      exact .newFlow env pkt ptr ring replication' _ sent hnone hopened.pop hreplica' hopened.chain
        (hinitial rfl) hsent
  | target env senderRtid message inputHeader outputHeader key ptr ring r sent hrecv hbody =>
    generalize rt.opened (rt.targetOpening ptr ring r inputHeader outputHeader key) = mid at *
    rw [(Inert.post mid sent _ _ _ _ rfl).contents_eq, hopened.contents, ledger_post, hopened.ledger]
    exact .newTarget env senderRtid message inputHeader outputHeader key ptr ring _ hrecv hbody hopened.pop
      hopened.chain (hinitial rfl)
  | replica env senderRtid message inputHeader outputHeader key states pkt ptr ring r head _ hrecv hbody hnone _
      hrep =>
    generalize rt.opened (rt.replicaOpening ptr ring r inputHeader outputHeader key head) = mid at *
    rcases repFsPktMsg_contents hslots' hlive hrep with ⟨hnot, -⟩ | ⟨-, -, hcontents⟩
    · exact absurd (congrArg Card.replicationState hopened.card) hnot
    · rw [repFsPktMsg_spec hrep, hopened.ledger, hcontents, hopened.nfs, hopened.contents]
      change rt.Change _ _ ((rt.contents.put ptr _ _ _).put ptr _ ((rt.contents.put ptr _ _ _).buffers ptr) _)
      rw [Contents.put_put, Contents.buffers_put, Contents.shared_put]
      exact .newReplica env senderRtid message inputHeader outputHeader key states pkt ptr ring head hrecv hbody
        hnone hopened.pop

/-- Every step changes the ledger and the contents in one of the listed ways. -/
theorem step_change {input : Input σ} (horderly : rt.ledger.Orderly) (h : rt.step input = some rt') :
    rt.Change input rt'.ledger rt'.contents := by
  obtain ⟨lost, hslots⟩ := horderly.slots
  have hinert (hinput : ∀ env pkt, input ≠ .packet env pkt) (hinert : rt.Inert rt') :
      rt.Change input rt'.ledger rt'.contents := by
    rw [hinert.contents_eq]
    exact .inert input _ hinput hinert.replication hinert.allocator
  have hdelivered {message : Message σ} {ptr : ℕ} (hdelivers : rt.ledger.Delivers message ptr) :
      rt.ledger.Live ptr ∧ ptr ≠ deadendFlowActor :=
    ⟨horderly.sound.id_live _ ptr hdelivers.2.1, horderly.sound.ne_deadend_of_set hdelivers.2.2⟩
  cases step_outcome h with
  | rest _ hrests => exact hinert (by cases hrests <;> simp) (.refl rt)
  | tally _ _ htallies => exact hinert (by cases htallies <;> simp) htallies.inert
  | abandon _ _ _ habandons => exact hinert (by cases habandons <;> simp) habandons.inert
  | ask _ base sent ptr request hprepares =>
    have hbase := hprepares.inert
    cases hprepares with
    | ship env senderRtid message _ succeed hdelivers hbody =>
      have hledger : (((rt.invalidate ptr .migration).enter ptr .afterRouteChange).ask true ptr
          (rt.stateRequest env ptr)).ledger = rt.ledger.request ptr .afterRouteChange
            ⟨rt.nextMsgId, .migrateFlowStateTimeout⟩ := by
        rw [ledger_ask, ledger_enter, ledger_invalidate, Ledger.disarm, Ledger.modifyCard_modifyCard,
          Ledger.modifyCard_modifyCard]
        rfl
      have hstates := NfTable.load_saveChain rt.nfs (rt.actors ptr).chain env.staleStates
      rw [← flowStates, ← held_contents (hdelivered hdelivers).1] at hstates
      rw [hledger, contents_ask _ ptr rfl, hbase.contents_eq]
      exact .ship env senderRtid message ptr _ hdelivers ⟨succeed, hbody⟩ hstates
    | _ => exact hinert (by simp) (hbase.trans (.ask _ sent ptr rfl))
  | newFlow _ _ _ hgrants hopens => exact hopens.change horderly hgrants
  | packet env pkt ptr _ hptr hpkt =>
    exact .packet env pkt ptr _ _ hptr (pktMsg_fed hslots (horderly.sound.flow_live _ _ hptr) hpkt)
      (pktMsg_spec hpkt)
  | unserved env pkt _ _ _ hpkt =>
    have hblank : (rt.bind (flowKeyOf pkt) deadendFlowActor).ledger.DeadendBlank := horderly.sound.blank
    exact absurd ((pktMsg_deadend hblank env pkt).symm.trans hpkt) (by simp)
  | ping _ _ _ sent =>
    refine hinert (by simp) (.of_fields rfl rfl rfl rfl ?_)
    cases sent <;> simp [cargo, MessageBody.carriesStates]
  | route _ _ _ _ _ _ _ sent _ hreroutes hupdated =>
    refine hinert (by simp) ((Inert.updateRoute hupdated).trans (.post _ sent _ _ _ _ ?_))
    cases hreroutes <;> rfl
  | mirror env senderRtid message inputHeader outputHeader key states pkt ptr _ hrecv hbody hptr hrep =>
    rcases repFsPktMsg_contents hslots (horderly.sound.flow_live _ _ hptr) hrep with
      ⟨-, rfl⟩ | ⟨hreplica, -, hcontents⟩
    · exact hinert (by simp) (.refl rt')
    · rw [repFsPktMsg_spec hrep, hcontents]
      exact .mirror env senderRtid message inputHeader outputHeader key states pkt ptr hrecv hbody hptr hreplica
  | bindDeadend env senderRtid message inputHeader outputHeader key states pkt _ hrecv hbody hnone hempty hrep =>
    have hreplica : ((rt.bind key deadendFlowActor).actors deadendFlowActor).replicationState = .noReplica :=
      horderly.sound.blank.replication
    rw [repFsPktMsg, hreplica, if_pos (by decide)] at hrep
    cases hrep
    exact hinert (by simp) (.bind rt key deadendFlowActor)
  | arrive env senderRtid message ptr states sent _ hdelivers hbody hreplay =>
    rw [contents_arrive hslots (hdelivered hdelivers).1 hreplay, replayBuffer_spec _ hreplay, ledger_arriving]
    exact .arrive env senderRtid message ptr states hdelivers hbody
  | complete env senderRtid message ptr hdelivers hbody =>
    rw [contents_settled hslots horderly.sound.pool (hdelivered hdelivers).1 (hdelivered hdelivers).2,
      ledger_removed, ledger_settled]
    exact .complete env senderRtid message ptr hdelivers hbody
  | recovered env senderRtid message ptr succeed hdelivers hbody =>
    rw [contents_recovered hslots (hdelivered hdelivers).1, ledger_recovered]
    exact .recovered env senderRtid message ptr succeed hdelivers hbody
  | notRecovered env ptr kind peer _ htype hpeer hdown =>
    have hcontents : (rt.notRecovered ptr).contents = rt.contents := contents_activateReplica rt ptr
    rw [hcontents, ledger_notRecovered]
    exact .notRecovered env ptr kind peer htype hpeer hdown
  | idleAgain _ ptr =>
    exact hinert (by simp) ((Inert.invalidate rt ptr .idle).trans (.modifyActor _ ptr rfl rfl rfl))
  | leave env ptr kind harmed htype hleaves =>
    have hcard : ((rt.ledger.cards ptr).timer kind) = (rt.actors ptr).timer kind := card_timer _ _
    rw [← hcard] at harmed htype
    rw [contents_left hslots horderly.sound.pool (horderly.sound.live_of_checkIdle harmed htype)
      (horderly.sound.ne_deadend_of_armed harmed), ledger_removed, ledger_left]
    exact .expire env ptr kind harmed htype hleaves

end Runtime

end NfvActor.Actor
