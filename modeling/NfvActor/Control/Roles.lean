import Mathlib.Tactic
import NfvActor.Control.Plane

/-!
# The roles of a peer

`reliables_` has one link per peer, so a peer must not be both a data-plane neighbour and in a control-plane
role. Every handler checks for this except `AddInputRt`, which relies on the check of the caller: a delete on
one side breaks that symmetry.
-/

namespace NfvActor.Control

open NfvActor.Foundation

/-- A data-plane neighbour is recorded in one map only. -/
def RpcState.RolesDisjoint (state : RpcState) : Prop :=
  ∀ (key : Address) (role other : Role), role.isDataPlane = true → key ∈ state.runtimes role →
    key ∈ state.runtimes other → other = role

namespace RpcState

variable {state : RpcState} {destAddr : Address}

theorem RolesDisjoint.erase (hdisjoint : state.RolesDisjoint) (role : Role) (key : Address) :
    (state.erase role key).RolesDisjoint := by
  intro other left right hdata hleft hright
  exact hdisjoint other left right hdata (mem_erase.1 hleft).1 (mem_erase.1 hright).1

/-- A peer that is recorded nowhere may be recorded in any role. -/
theorem RolesDisjoint.emplace_fresh (hdisjoint : state.RolesDisjoint) {key : Address}
    (hfresh : ∀ role, key ∉ state.runtimes role) (role : Role) (peer : Peer) :
    (state.emplace role key peer).RolesDisjoint := by
  intro other left right hdata hleft hright
  rw [mem_emplace] at hleft hright
  rcases hleft with hleft | ⟨hleft, hkey⟩
  · rcases hright with hright | ⟨-, hkey⟩
    · exact hdisjoint other left right hdata hleft hright
    · exact absurd (hkey ▸ hleft) (hfresh left)
  · rcases hright with hright | ⟨hright, -⟩
    · exact absurd (hkey ▸ hright) (hfresh right)
    · exact hright.trans hleft.symm

variable {role : Role}

/-- A peer that is no neighbour may be recorded in a control-plane role. -/
theorem RolesDisjoint.emplace_control (hdisjoint : state.RolesDisjoint) {key : Address}
    (hcontrol : role.isDataPlane = false)
    (hfresh : ∀ other, other.isDataPlane = true → key ∉ state.runtimes other) (peer : Peer) :
    (state.emplace role key peer).RolesDisjoint := by
  intro other left right hdata hleft hright
  rw [mem_emplace] at hleft hright
  rcases hleft with hleft | ⟨rfl, -⟩
  · rcases hright with hright | ⟨-, hkey⟩
    · exact hdisjoint other left right hdata hleft hright
    · exact absurd (hkey ▸ hleft) (hfresh left hdata)
  · exact absurd hdata (by simp [hcontrol])

/-- The callee of a negotiation has exactly the neighbours in the request. -/
theorem mem_of_sameNeighbours {inputs outputs : List Address} (hsame : state.sameNeighbours inputs outputs)
    (hinputs : inputs.Nodup) (houtputs : outputs.Nodup) (key : Address) :
    (key ∈ state.runtimes .input → key ∈ inputs) ∧ (key ∈ state.runtimes .output → key ∈ outputs) := by
  have hback {listed keys : List Address} (hnodup : listed.Nodup) (hsub : listed ⊆ keys)
      (hlength : keys.length = listed.length) : keys ⊆ listed :=
    ((List.subperm_of_subset hnodup hsub).perm_of_length_le hlength.le).symm.subset
  obtain ⟨⟨hinputLength, houtputLength⟩, hinput, houtput⟩ := hsame
  exact ⟨fun hmem ↦ hback hinputs hinput hinputLength hmem, fun hmem ↦ hback houtputs houtput houtputLength hmem⟩

theorem Admits.not_neighbour {request : NestedRequest} {caller : Address} (hadmits : state.Admits request)
    (haddress : request.caller.val.address = caller) (hlists : request.Lists caller)
    (hdata : role.isDataPlane = true) : caller ∉ state.runtimes role := by
  subst haddress
  cases request with
  | addInputRt =>
    cases role with
    | input => exact hadmits.1
    | output => exact hadmits.2
    | _ => exact absurd hdata (by decide)
  | migrationNegotiate _ _ peer | replicaNegotiate _ _ peer =>
    have hback := mem_of_sameNeighbours hadmits.1 hlists.1.1 hlists.2.1 peer.val.address
    cases role with
    | input => exact fun hmem ↦ hlists.1.2 (hback.1 hmem)
    | output => exact fun hmem ↦ hlists.2.2 (hback.2 hmem)
    | _ => exact absurd hdata (by decide)

theorem not_neighbour_of_fits {negotiation : Negotiation} (hfits : ¬ state.rejects destAddr negotiation)
    (hdata : role.isDataPlane = true) : destAddr ∉ state.runtimes role := by
  intro hmem
  cases role with
  | input | output => cases negotiation <;> simp [rejects, hmem] at hfits
  | _ => exact absurd hdata (by decide)

/-- `AddOutputRts` looks at all six maps. -/
theorem fresh_of_fits (hfits : ¬ state.rejects destAddr .addOutputRts) (role : Role) :
    destAddr ∉ state.runtimes role := by
  intro hmem
  cases role <;> simp [rejects, hmem] at hfits

end RpcState

namespace Plane

/-- The runtime that handles `AddInputRt` in a step, with the caller. -/
def inputRequest (plane : Plane) : ControlInput → Option (Node × Peer)
  | .execute index => do
    let call ← plane.calls[index]?
    let node ← plane.nodes call.destAddr
    match call.request with
    | .addInputRt caller => some (node, caller)
    | _ => none
  | _ => none

/-- `AddInputRt` is handled by a runtime that has the caller in no control-plane role. -/
def KeepsRolesApart (plane : Plane) (input : ControlInput) : Prop :=
  ∀ entry ∈ plane.inputRequest input, ∀ role : Role, role.isDataPlane = false →
    entry.2.val.address ∉ entry.1.rpc.runtimes role

instance (plane : Plane) (input : ControlInput) : Decidable (plane.KeepsRolesApart input) :=
  inferInstanceAs (Decidable (∀ entry ∈ plane.inputRequest input, _))

variable {deployment : Deployment} {plane plane' : Plane} {input : ControlInput} {emission : Emission}

theorem rolesDisjoint_turn (hformed : plane.Formed deployment) (hapart : plane.KeepsRolesApart input)
    (hturn : plane.Turn input plane' emission)
    (hdisjoint : ∀ {address node}, plane.nodes address = some node → node.rpc.RolesDisjoint)
    {address : Address} {node : Node} (hnode' : plane'.nodes address = some node) : node.rpc.RolesDisjoint := by
  cases hturn with
  | shift _ hnode | call hnode | resume hnode | giveUp hnode =>
    rcases nodes_setNode hnode' with ⟨-, rfl⟩ | ⟨-, hold⟩
    · exact (hdisjoint hnode :)
    · exact hdisjoint hold
  | forget hnode =>
    rcases nodes_setNode hnode' with ⟨-, rfl⟩ | ⟨-, hold⟩
    · exact (hdisjoint hnode).erase _ _
    · exact hdisjoint hold
  | keep hnode | decline _ _ hnode =>
    rcases nodes_setNode hnode' with ⟨-, rfl⟩ | ⟨-, hold⟩
    · exact hdisjoint hnode
    · exact hdisjoint hold
  | @accept index call node hcall _ hnode _ hadmits =>
    rcases nodes_setNode hnode' with ⟨-, rfl⟩ | ⟨-, hold⟩
    · have hown := hformed.call_of_getElem? hcall
      have hneighbour {role : Role} (hdata : role.isDataPlane = true) :
          call.request.caller.val.address ∉ node.rpc.runtimes role := by
        rw [hown.address_eq]
        exact hadmits.not_neighbour hown.address_eq hown.lists hdata
      cases hrequest : call.request with
      | addInputRt caller =>
        have hentry : (node, caller) ∈ plane.inputRequest (.execute index) := by
          simp [inputRequest, hcall, hnode, hrequest]
        have hcontrol := hapart _ hentry
        rw [hrequest] at hneighbour
        refine (hdisjoint hnode).emplace_fresh (fun role ↦ ?_) _ _
        cases hdata : role.isDataPlane with
        | true => exact hneighbour hdata
        | false => exact hcontrol role hdata
      | migrationNegotiate | replicaNegotiate =>
        rw [hrequest] at hneighbour
        exact (hdisjoint hnode).emplace_control rfl (fun other hdata ↦ hneighbour hdata) _
    · exact hdisjoint hold
  | @record _ _ _ negotiation _ _ _ _ hnode hwaiting hcall hreply =>
    rcases nodes_setNode hnode' with ⟨-, rfl⟩ | ⟨-, hold⟩
    · have hfits := (hformed.awaits hnode hwaiting).fits
      have hdest := hformed.reply_of_awaits hnode hwaiting hcall hreply
      rw [RpcState.record_eq (deployment.address_eq hdest)]
      cases negotiation with
      | addOutputRts => exact (hdisjoint hnode).emplace_fresh (RpcState.fresh_of_fits hfits) _ _
      | setMigrationTarget | addReplicas =>
        exact (hdisjoint hnode).emplace_control rfl
          (fun other hdata ↦ RpcState.not_neighbour_of_fits hfits hdata) _
    · exact hdisjoint hold

/-- The invariant of the runs that keep the roles apart. -/
structure RolesApart (deployment : Deployment) (plane : Plane) : Prop where
  formed : plane.Formed deployment
  disjoint : ∀ {address node}, plane.nodes address = some node → node.rpc.RolesDisjoint

theorem RolesApart.boot (deployment : Deployment) : deployment.boot.RolesApart deployment where
  formed := Formed.boot deployment
  disjoint hnode := by
    obtain ⟨peer, -, rfl⟩ := Option.map_eq_some_iff.1 hnode
    exact fun key role other _ hmem ↦ absurd hmem (by simp [Deployment.bootRpc])

theorem RolesApart.turn (hroles : plane.RolesApart deployment) (hapart : plane.KeepsRolesApart input)
    (hturn : plane.Turn input plane' emission) : plane'.RolesApart deployment :=
  ⟨hroles.formed.turn hturn, rolesDisjoint_turn hroles.formed hapart hturn hroles.disjoint⟩

theorem RolesApart.of_reachable (hreach : deployment.system.Reachable KeepsRolesApart plane) :
    plane.RolesApart deployment := by
  refine hreach.invariant (fun _ h ↦ h ▸ RolesApart.boot deployment) fun s input s' hs hapart hstep ↦ ?_
  obtain ⟨⟨_, emission⟩, hemit, rfl⟩ := Option.map_eq_some_iff.1 hstep
  exact hs.turn hapart (turn_of_emit hemit)

/-- If `AddInputRt` is only handled by runtimes that have the caller in no control-plane role, no runtime ever
has a data-plane neighbour in a second map. -/
theorem roles_disjoint (deployment : Deployment) (plane : Plane)
    (hreach : deployment.system.Reachable KeepsRolesApart plane) (address : Address) (node : Node)
    (hnode : plane.nodes address = some node) : node.rpc.RolesDisjoint :=
  (RolesApart.of_reachable hreach).disjoint hnode

end Plane

/-- A runtime with the given number in its addresses. -/
def numberedConfig (number : ℕ) : RuntimeConfig :=
  ⟨Int32.ofNat number, UInt64.ofNat (0x010000000000 + number), UInt64.ofNat (0x020000000000 + number),
    UInt64.ofNat (0x030000000000 + number), UInt32.ofNat (0x0A000000 + number), 10240⟩

def firstPeer : Peer := ⟨numberedConfig 1, by decide +kernel⟩

def secondPeer : Peer := ⟨numberedConfig 2, by decide +kernel⟩

/-- A deployment of two runtimes. -/
def twoRuntimes : Deployment where
  runtimes address :=
    if address = firstPeer.val.address then some firstPeer
    else if address = secondPeer.val.address then some secondPeer
    else none
  address_eq := by
    intro address peer hpeer
    split_ifs at hpeer with hfirst hsecond
    · rw [← Option.some.inj hpeer, hfirst]
    · rw [← Option.some.inj hpeer, hsecond]

/-- The first runtime calls the second one and gets its answer. -/
def negotiated (negotiation : Negotiation) (call : ℕ) : List ControlInput :=
  [.request firstPeer.val.address (.negotiate negotiation [secondPeer.val.address]),
    .iterate firstPeer.val.address, .execute call, .resume firstPeer.val.address,
    .iterate firstPeer.val.address]

/-- The second runtime becomes a replica of the first, is deleted there only, and becomes its output. -/
def oneSidedDelete : List ControlInput :=
  negotiated .addReplicas 0 ++ [.request firstPeer.val.address (.deleteReplica secondPeer.val.address)] ++
    negotiated .addOutputRts 1

namespace Plane

theorem roles_disjoint_two_runtimes :
    ∃ plane node, twoRuntimes.system.run twoRuntimes.boot (negotiated .addOutputRts 0) = some plane ∧
      plane.nodes secondPeer.val.address = some node ∧
      firstPeer.val.address ∈ node.rpc.runtimes .input ∧ node.rpc.RolesDisjoint := by
  obtain ⟨plane, hplane, node, hnode, hinput⟩ :
      ∃ plane ∈ twoRuntimes.system.runChecked (fun plane input ↦ decide (plane.KeepsRolesApart input))
        twoRuntimes.boot (negotiated .addOutputRts 0), ∃ node ∈ plane.nodes secondPeer.val.address,
        firstPeer.val.address ∈ node.rpc.runtimes .input := by decide +kernel
  refine ⟨plane, node, TransitionSystem.run_of_runChecked hplane, hnode, hinput, ?_⟩
  exact roles_disjoint twoRuntimes plane (.replayDecided rfl hplane) _ node hnode

/-- After the one-sided delete the second runtime has the first in `storages_` and in `input_runtimes_`. -/
theorem roles_overlap_after_one_sided_delete :
    ∃ plane node, twoRuntimes.system.run twoRuntimes.boot oneSidedDelete = some plane ∧
      plane.nodes secondPeer.val.address = some node ∧
      firstPeer.val.address ∈ node.rpc.runtimes .storage ∧
      firstPeer.val.address ∈ node.rpc.runtimes .input ∧ ¬ node.rpc.RolesDisjoint := by
  refine ⟨_, _, rfl, rfl, by decide +kernel, by decide +kernel, fun hdisjoint ↦ ?_⟩
  have hsame := hdisjoint firstPeer.val.address .input .storage rfl (by decide +kernel) (by decide +kernel)
  cases hsame

end Plane

end NfvActor.Control
