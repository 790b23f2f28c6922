import Mathlib.Tactic
import NfvActor.Control.Links

/-!
# Lists of replicas

`replica_flow_lists_` should have a list for every runtime in `storages_`. The list is made and given up only
together with the link to the peer, so it follows the role as long as `add_storage` finds no link and
`remove_storage` drops the last reference.
-/

namespace NfvActor.Control

open NfvActor.Foundation
open Option (bind_eq_some_iff map_eq_some_iff)

/-- `add_storage` makes the link, and `remove_storage` frees it. -/
def Worker.OwnsLink (worker : Worker) (command : Command) : Prop :=
  (command.operation = .addStorage → worker.holder.reliables command.rtConfig.val.runtimeId = none) ∧
    (command.operation = .removeStorage →
      ((worker.holder.release command.rtConfig).all fun released ↦ released.2) = true)

instance (worker : Worker) (command : Command) : Decidable (worker.OwnsLink command) :=
  inferInstanceAs (Decidable ((_ → _) ∧ (_ → _)))

/-- A runtime has recorded a peer with this id as a storage. -/
def RpcState.Stores (state : RpcState) (runtimeId : Int32) : Prop :=
  ∃ key peer, (state.runtimes .storage).lookup key = some peer ∧ peer.val.runtimeId = runtimeId

/-- The worker has a list for exactly the storages of the RPC thread. -/
structure Worker.Listed (state : RpcState) (worker : Worker) : Prop where
  nodup : worker.replicaFlowLists.Nodup
  exact : ∀ runtimeId, runtimeId ∈ worker.replicaFlowLists ↔ state.Stores runtimeId

namespace RpcState

variable {deployment : Deployment} {state : RpcState} {key : Address} {peer : Peer} {runtimeId : Int32}

theorem stores_emplace (hnew : key ∉ state.runtimes .storage) :
    (state.emplace .storage key peer).Stores runtimeId ↔
      runtimeId = peer.val.runtimeId ∨ state.Stores runtimeId := by
  constructor
  · rintro ⟨other, found, hlookup, rfl⟩
    rcases lookup_emplace hlookup with hold | ⟨-, -, rfl⟩
    · exact .inr ⟨other, found, hold, rfl⟩
    · exact .inl rfl
  · rintro (rfl | ⟨other, found, hlookup, hid⟩)
    · exact ⟨key, peer, lookup_emplace_new hnew, rfl⟩
    · exact ⟨other, found, lookup_emplace_old hlookup, hid⟩

theorem stores_erase (hseparate : deployment.Separate) {address : Address}
    (hformed : state.Formed deployment address) (hlookup : (state.runtimes .storage).lookup key = some peer) :
    (state.erase .storage key).Stores runtimeId ↔ runtimeId ≠ peer.val.runtimeId ∧ state.Stores runtimeId := by
  constructor
  · rintro ⟨other, found, herased, rfl⟩
    have hold := lookup_erase herased
    refine ⟨fun hid ↦ ?_, other, found, hold, rfl⟩
    have hsame := hseparate.id (hformed.known hold).1 (hformed.known hlookup).1 hid
    have hkey : other = key := by
      rw [← deployment.address_eq (hformed.known hold).1, ← deployment.address_eq (hformed.known hlookup).1, hsame]
    have hmem : other ∈ (state.erase .storage key).runtimes .storage :=
      mem_of_lookup herased
    exact (mem_erase.1 hmem).2 ⟨rfl, hkey⟩
  · rintro ⟨hne, other, found, hold, rfl⟩
    refine ⟨other, found, lookup_erase_old hold fun _ ↦ ?_, rfl⟩
    rintro rfl
    exact hne (congrArg (fun peer : Peer ↦ peer.val.runtimeId) (Option.some.inj (hold.symm.trans hlookup)))

end RpcState

namespace Worker

variable {deployment : Deployment} {worker worker' : Worker} {state state' : RpcState} {role : Role} {peer : Peer}

theorem replicaFlowLists_addStorage (hlink : worker.OwnsLink ⟨.addStorage, peer⟩)
    (hrun : worker.runTask ⟨.addStorage, peer⟩ = some worker') :
    worker'.replicaFlowLists = worker.replicaFlowLists.insert peer.val.runtimeId := by
  obtain ⟨holder, -, hrun⟩ := bind_eq_some_iff.1 hrun
  cases hrun
  dsimp only
  rw [hlink.1 rfl]

theorem replicaFlowLists_removeStorage (hlink : worker.OwnsLink ⟨.removeStorage, peer⟩)
    (hrun : worker.runTask ⟨.removeStorage, peer⟩ = some worker') :
    worker'.replicaFlowLists = worker.replicaFlowLists.erase peer.val.runtimeId := by
  obtain ⟨⟨holder, freed⟩, hrelease, hrun⟩ := bind_eq_some_iff.1 hrun
  have hfreed := hlink.2 rfl
  rw [hrelease, Option.all_some] at hfreed
  cases hrun
  exact if_pos hfreed

theorem Listed.of_same (hlisted : worker.Listed state)
    (hlists : worker'.replicaFlowLists = worker.replicaFlowLists)
    (hstate : state'.runtimes .storage = state.runtimes .storage) : worker'.Listed state' := by
  refine ⟨hlists ▸ hlisted.nodup, fun runtimeId ↦ ?_⟩
  rw [hlists, hlisted.exact, RpcState.Stores, RpcState.Stores, hstate]

theorem Listed.runTask {address : Address} {command : Command} (hlisted : worker.Listed state)
    (hseparate : deployment.Separate) (hformed : state.Formed deployment address)
    (heffect : state.Effect deployment command state') (hlink : worker.OwnsLink command)
    (hrun : worker.runTask command = some worker') : worker'.Listed state' := by
  cases heffect with
  | @added role _ _ _ hnew =>
    by_cases hrole : role = .storage
    · subst hrole
      have hlists := replicaFlowLists_addStorage hlink hrun
      refine ⟨hlists ▸ hlisted.nodup.insert, fun runtimeId ↦ ?_⟩
      rw [hlists, List.mem_insert_iff, hlisted.exact, RpcState.stores_emplace hnew]
    · exact hlisted.of_same ((runTask_add hrun).2.2.2 hrole) (RpcState.runtimes_emplace_of_ne (Ne.symm hrole))
  | @deleted role _ _ hlookup =>
    by_cases hrole : role = .storage
    · subst hrole
      have hlists := replicaFlowLists_removeStorage hlink hrun
      refine ⟨hlists ▸ hlisted.nodup.erase _, fun runtimeId ↦ ?_⟩
      rw [hlists, hlisted.nodup.mem_erase_iff, hlisted.exact, RpcState.stores_erase hseparate hformed hlookup]
    · exact hlisted.of_same ((runTask_delete hrun).2.2.2 hrole) (RpcState.runtimes_erase_of_ne (Ne.symm hrole))
  | @kept role _ _ _ hkind =>
    have hrole : role ≠ .storage := by
      rcases hkind with rfl | rfl <;> decide
    exact hlisted.of_same ((runTask_delete hrun).2.2.2 hrole) rfl

end Worker

namespace Site

/-- The command for a storage makes or frees the link to it. -/
def KeepsLists (site : Site) : SiteInput → Prop
  | .control input => ∀ entry ∈ site.command input, entry.1.OwnsLink entry.2
  | .flow _ _ => True

instance (site : Site) (input : SiteInput) : Decidable (site.KeepsLists input) :=
  match input with
  | .control input => inferInstanceAs (Decidable (∀ entry ∈ site.command input, _))
  | .flow _ _ => inferInstanceAs (Decidable True)

structure Listed (deployment : Deployment) (site : Site) : Prop where
  staffed : site.Staffed deployment
  worker : ∀ {address worker node}, site.workers address = some worker → site.plane.nodes address = some node →
    worker.Listed node.rpc

variable {deployment : Deployment} {site site' : Site}

theorem Listed.step (hseparate : deployment.Separate) (hlisted : site.Listed deployment) {input : SiteInput}
    (hkeeps : site.KeepsLists input) (hstep : site.step input = some site') : site'.Listed deployment := by
  refine ⟨hlisted.staffed.step hstep, fun {address worker' found} hworker' hfound ↦ ?_⟩
  obtain ⟨worker, node, node', hworker, hnode, hnode', hvisit⟩ := hlisted.staffed.visit hstep hworker'
  cases hnode'.symm.trans hfound
  have hhere := hlisted.worker hworker hnode
  cases hvisit with
  | aside hrpc hworker =>
    rw [hrpc, hworker]
    exact hhere
  | task hinput hcommand heffect hrun =>
    subst hinput
    exact hhere.runTask hseparate (hlisted.staffed.formed.node hnode) heffect (hkeeps _ hcommand) hrun
  | flow _ _ hrpc hrun =>
    exact hhere.of_same ((Worker.runFlow_cases hrun).2.2) (by rw [hrpc])

theorem Listed.boot (deployment : Deployment) : deployment.bootSite.Listed deployment where
  staffed := Staffed.boot deployment
  worker hworker hnode := by
    obtain ⟨_, -, rfl⟩ := map_eq_some_iff.1 hworker
    obtain ⟨_, -, rfl⟩ := map_eq_some_iff.1 hnode
    refine ⟨List.nodup_nil, fun runtimeId ↦ iff_of_false List.not_mem_nil ?_⟩
    rintro ⟨key, peer, hlookup, -⟩
    exact absurd hlookup (by simp [Deployment.bootRpc])

/-- In every run that meets the condition, a worker has a list of replicas for an id exactly if a runtime with
this id is recorded in `storages_`. -/
theorem storage_lists_exact (deployment : Deployment) (hseparate : deployment.Separate) (site : Site)
    (hreach : deployment.siteSystem.Reachable KeepsLists site) (address : Address) (worker : Worker) (node : Node)
    (hworker : site.workers address = some worker) (hnode : site.plane.nodes address = some node)
    (runtimeId : Int32) : runtimeId ∈ worker.replicaFlowLists ↔ node.rpc.Stores runtimeId := by
  have hlisted : site.Listed deployment :=
    hreach.invariant (fun _ h ↦ h ▸ Listed.boot deployment) fun _ _ _ hs hkeeps hstep ↦
      hs.step hseparate hkeeps hstep
  exact (hlisted.worker hworker hnode).exact runtimeId

/-- The second runtime becomes a replica of the first, and has a list for it. -/
theorem storage_lists_exact_two_runtimes :
    ∃ site worker node,
      twoRuntimes.siteSystem.run twoRuntimes.bootSite ((negotiated .addReplicas 0).map .control) = some site ∧
      site.workers secondPeer.val.address = some worker ∧ site.plane.nodes secondPeer.val.address = some node ∧
      worker.replicaFlowLists = [1] ∧ node.rpc.Stores 1 := by
  obtain ⟨site, hsite, worker, hworker, node, hnode, hlists⟩ :
      ∃ site ∈ twoRuntimes.siteSystem.runChecked (fun site input ↦ decide (site.KeepsLists input))
        twoRuntimes.bootSite ((negotiated .addReplicas 0).map .control),
      ∃ worker ∈ site.workers secondPeer.val.address, ∃ _ ∈ site.plane.nodes secondPeer.val.address,
        worker.replicaFlowLists = [1] := by decide +kernel
  have hreach := TransitionSystem.Reachable.replayDecided rfl hsite
  refine ⟨site, worker, node, TransitionSystem.run_of_runChecked hsite, hworker, hnode, hlists, ?_⟩
  refine (storage_lists_exact twoRuntimes twoRuntimes_separate site hreach _ worker node hworker hnode 1).1 ?_
  rw [hlists]
  exact List.mem_singleton_self 1

/-- The two runtimes make each other a replica, the first one first. -/
def mutualReplicas : List ControlInput :=
  negotiated .addReplicas 0 ++
    [.request secondPeer.val.address (.negotiate .addReplicas [firstPeer.val.address]),
      .iterate secondPeer.val.address, .execute 1, .resume secondPeer.val.address,
      .iterate secondPeer.val.address]

/-- Then the second runtime deletes its storage. -/
def deletedStorage : List ControlInput :=
  mutualReplicas ++ [.request secondPeer.val.address (.deleteStorage firstPeer.val.address)]

/-- The first runtime has no list for its storage, and that of the second outlives the role. -/
theorem storage_without_list :
    (∃ site worker node, twoRuntimes.siteSystem.run twoRuntimes.bootSite (mutualReplicas.map .control) = some site ∧
      site.workers firstPeer.val.address = some worker ∧ site.plane.nodes firstPeer.val.address = some node ∧
      secondPeer.val.address ∈ node.rpc.runtimes .storage ∧ worker.replicaFlowLists = []) ∧
    ∃ site worker node, twoRuntimes.siteSystem.run twoRuntimes.bootSite (deletedStorage.map .control) = some site ∧
      site.workers secondPeer.val.address = some worker ∧ site.plane.nodes secondPeer.val.address = some node ∧
      firstPeer.val.address ∉ node.rpc.runtimes .storage ∧ worker.replicaFlowLists = [1] := by
  constructor
  · exact ⟨_, _, _, rfl, rfl, rfl, by decide +kernel, rfl⟩
  · exact ⟨_, _, _, rfl, rfl, rfl, by decide +kernel, rfl⟩

end Site

end NfvActor.Control
