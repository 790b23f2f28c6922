import Mathlib.Tactic
import NfvActor.Control.Worker

/-!
# Links and MAC addresses agree

Every command follows a change of the maps of the RPC thread. As long as a peer becomes a neighbour only when
there is no link to it, both maps of the worker find the same live links.
-/

namespace NfvActor.Control

open NfvActor.Foundation
open Function
open Option (bind_eq_some_iff map_eq_some_iff)

/-- How the maps of the RPC thread change with a command for the worker. -/
inductive RpcState.Effect (deployment : Deployment) (state : RpcState) : Command → RpcState → Prop
  | added {role : Role} {key : Address} {peer : Peer} (hpeer : deployment.runtimes key = some peer)
      (hnew : key ∉ state.runtimes role) :
      Effect deployment state ⟨role.addOperation, peer⟩ (state.emplace role key peer)
  | deleted {role : Role} {key : Address} {peer : Peer} (hlookup : (state.runtimes role).lookup key = some peer)
      (hkind : role ≠ .migrationTarget ∧ role ≠ .migrationSource) :
      Effect deployment state ⟨role.deleteOperation, peer⟩ (state.erase role key)
  | kept {role : Role} {key : Address} {peer : Peer} (hlookup : (state.runtimes role).lookup key = some peer)
      (hkind : role = .migrationTarget ∨ role = .migrationSource) :
      Effect deployment state ⟨role.deleteOperation, peer⟩ state

theorem ControlRequest.forgets_kind {req : ControlRequest} {role : Role} {target : Address}
    (hrole : req.forgets = some (role, target)) : role ≠ .migrationTarget ∧ role ≠ .migrationSource := by
  cases req <;> simp only [forgets, Option.some.injEq, Prod.mk.injEq, reduceCtorEq] at hrole <;>
    (obtain ⟨rfl, -⟩ := hrole; decide)

theorem ControlRequest.keeps_kind {req : ControlRequest} {role : Role} {target : Address}
    (hrole : req.keeps = some (role, target)) : role = .migrationTarget ∨ role = .migrationSource := by
  cases req <;> simp only [keeps, Option.some.injEq, Prod.mk.injEq, reduceCtorEq] at hrole <;>
    (obtain ⟨rfl, -⟩ := hrole; decide)

variable {state : RpcState} {deployment : Deployment}

theorem RpcState.not_recorded_of_fits {destAddr : Address} {negotiation : Negotiation}
    (hfits : ¬ state.rejects destAddr negotiation) : destAddr ∉ state.runtimes negotiation.callerRole := by
  intro hmem
  cases negotiation <;> simp_all [rejects, Negotiation.callerRole]

namespace Plane

variable {deployment : Deployment} {plane plane' : Plane} {input : ControlInput}

/-- A step without a command leaves the maps of every runtime alone. -/
theorem Turn.node_of_quiet (hturn : plane.Turn input plane' none) {address : Address} {node : Node}
    (hnode : plane.nodes address = some node) :
    ∃ node', plane'.nodes address = some node' ∧ node.rpc = node'.rpc := by
  have hset {other : Address} {old new : Node} (hold : plane.nodes other = some old) (hrpc : old.rpc = new.rpc) :
      ∃ node', (plane.setNode other new).nodes address = some node' ∧ node.rpc = node'.rpc := by
    by_cases hother : address = other
    · subst hother
      cases hnode.symm.trans hold
      exact ⟨new, update_self .., hrpc⟩
    · exact ⟨node, (update_of_ne hother ..).trans hnode, rfl⟩
  cases hturn with
  | shift activity hold | call hold | decline _ _ hold | resume hold | giveUp hold => exact hset hold rfl

/-- A command goes to the runtime whose maps change with it. -/
theorem Turn.effect (hformed : plane.Formed deployment) {address : Address} {command : Command}
    (hturn : plane.Turn input plane' (some (address, command))) :
    ∃ node node', plane.nodes address = some node ∧ plane'.nodes = (plane.setNode address node').nodes ∧
      node.rpc.Effect deployment command node'.rpc := by
  cases hturn with
  | forget hnode _ hrole hlookup =>
    exact ⟨_, _, hnode, rfl, .deleted hlookup (ControlRequest.forgets_kind hrole)⟩
  | keep hnode _ hrole hlookup =>
    exact ⟨_, _, hnode, rfl, .kept hlookup (ControlRequest.keeps_kind hrole)⟩
  | @accept _ _ _ hcall _ hnode _ hadmits =>
    have hown := hformed.call_of_getElem? hcall
    refine ⟨_, _, hnode, rfl, .added ?_ hadmits.not_recorded⟩
    rw [hown.address_eq]
    exact hown.caller
  | @record _ _ _ _ _ _ _ _ hnode hwaiting hcall hreply =>
    have hdest := hformed.reply_of_awaits hnode hwaiting hcall hreply
    refine ⟨_, _, hnode, rfl, ?_⟩
    rw [RpcState.record_eq (deployment.address_eq hdest)]
    exact .added hdest (RpcState.not_recorded_of_fits (hformed.awaits hnode hwaiting).fits)

end Plane

/-- A link found under a runtime id is to a runtime of the deployment, is found under the MAC address from which
that sends, and runs on a neighbour's port exactly if the peer is that neighbour. -/
structure ReliablesHolder.Placed (deployment : Deployment) (state : RpcState) (holder : ReliablesHolder)
    (runtimeId : Int32) (ptr : ℕ) (link : ReliableLink) : Prop where
  id : link.remoteRtConfig.val.runtimeId = runtimeId
  known : deployment.runtimes link.remoteRtConfig.val.address = some link.remoteRtConfig
  mac : holder.macToReliables link.mac = some (some ptr)
  role : ∀ role : Role, role.isDataPlane = true →
    (link.port = role.port ↔ link.remoteRtConfig.val.address ∈ state.runtimes role)

structure ReliablesHolder.Linked (deployment : Deployment) (state : RpcState) (holder : ReliablesHolder) :
    Prop where
  entry : ∀ {runtimeId ptr}, holder.reliables runtimeId = some ptr →
    ∃ link, holder.heap ptr = some link ∧ holder.Placed deployment state runtimeId ptr link
  mac : ∀ {mac value}, holder.macToReliables mac = some value →
    ∃ runtimeId ptr link, value = some ptr ∧ holder.reliables runtimeId = some ptr ∧
      holder.heap ptr = some link ∧ link.mac = mac
  fresh : ∀ {ptr link}, holder.heap ptr = some link → ptr < holder.nextPtr

/-- Two states have the same neighbours, except perhaps for one address. -/
def RpcState.NeighboursExcept (address : Address) (state state' : RpcState) : Prop :=
  ∀ other, other ≠ address → ∀ role : Role, role.isDataPlane = true →
    (other ∈ state'.runtimes role ↔ other ∈ state.runtimes role)

namespace ReliablesHolder

variable {deployment : Deployment} {state state' : RpcState} {holder : ReliablesHolder}

namespace Placed

variable {runtimeId other : Int32} {ptr ptr' : ℕ} {link link' : ReliableLink}

variable (hplaced : holder.Placed deployment state runtimeId ptr link)

include hplaced

theorem ne_address {peer : Peer} (hpeer : deployment.runtimes peer.val.address = some peer)
    (hid : peer.val.runtimeId ≠ runtimeId) : link.remoteRtConfig.val.address ≠ peer.val.address := by
  intro haddress
  have hknown := hplaced.known
  rw [haddress, hpeer, Option.some.injEq] at hknown
  exact hid (hknown ▸ hplaced.id)

theorem ne_mac (hseparate : deployment.Separate) {peer : Peer}
    (hpeer : deployment.runtimes peer.val.address = some peer) (hid : peer.val.runtimeId ≠ runtimeId)
    (port : Port) : link.mac ≠ port.peerMac peer := by
  intro hmac
  exact hid (hseparate.mac hplaced.known hpeer _ _ hmac ▸ hplaced.id)

/-- A link stays in place when links to other peers change. -/
theorem frame {holder' : ReliablesHolder} {address : Address}
    (hmac : holder'.macToReliables link.mac = holder.macToReliables link.mac)
    (hstate : RpcState.NeighboursExcept address state state')
    (haddress : link.remoteRtConfig.val.address ≠ address) :
    holder'.Placed deployment state' runtimeId ptr link where
  id := hplaced.id
  known := hplaced.known
  mac := hmac.trans hplaced.mac
  role role hdata := (hplaced.role role hdata).trans (hstate _ haddress role hdata).symm

end Placed

namespace Linked

variable {runtimeId : Int32} {ptr : ℕ} {link : ReliableLink} {peer : Peer} {role : Role}
  {holder' : ReliablesHolder}

variable (hlinked : holder.Linked deployment state)

include hlinked

theorem entry_of_heap (hptr : holder.reliables runtimeId = some ptr) (hlink : holder.heap ptr = some link) :
    holder.Placed deployment state runtimeId ptr link := by
  obtain ⟨_, hfound, hplaced⟩ := hlinked.entry hptr
  rwa [Option.some.inj (hlink.symm.trans hfound)]

theorem ptr_injective {left right : Int32} (hleft : holder.reliables left = some ptr)
    (hright : holder.reliables right = some ptr) : left = right := by
  obtain ⟨link, hlink, hplaced⟩ := hlinked.entry hleft
  exact hplaced.id.symm.trans (hlinked.entry_of_heap hright hlink).id

theorem opened (hseparate : deployment.Separate) {port : Port}
    (habsent : holder.reliables peer.val.runtimeId = none)
    (hpeer : deployment.runtimes peer.val.address = some peer)
    (hstate : RpcState.NeighboursExcept peer.val.address state state')
    (hrole : ∀ role : Role, role.isDataPlane = true → (port = role.port ↔ peer.val.address ∈ state'.runtimes role))
    (refCnt : ℤ) : (holder.opened port peer refCnt).Linked deployment state' := by
  have hother {runtimeId : Int32} {ptr : ℕ} (hptr : holder.reliables runtimeId = some ptr) :
      runtimeId ≠ peer.val.runtimeId ∧ ptr ≠ holder.nextPtr := by
    refine ⟨fun heq ↦ ?_, fun heq ↦ ?_⟩
    · rw [heq, habsent] at hptr
      cases hptr
    · obtain ⟨link, hlink, -⟩ := hlinked.entry hptr
      exact absurd (hlinked.fresh hlink) (by omega)
  refine ⟨fun {runtimeId ptr} hptr ↦ ?_, fun {mac value} hvalue ↦ ?_, fun {ptr link} hlink ↦ ?_⟩
  · simp only [ReliablesHolder.opened] at hptr ⊢
    by_cases hid : runtimeId = peer.val.runtimeId
    · subst hid
      rw [update_self, Option.some.injEq] at hptr
      subst hptr
      refine ⟨⟨port, refCnt, peer⟩, update_self .., rfl, hpeer, ?_, hrole⟩
      exact update_self ..
    · rw [update_of_ne hid] at hptr
      obtain ⟨link, hlink, hplaced⟩ := hlinked.entry hptr
      refine ⟨link, by rw [update_of_ne (hother hptr).2, hlink], ?_⟩
      refine hplaced.frame ?_ hstate (hplaced.ne_address hpeer (Ne.symm hid))
      exact update_of_ne (hplaced.ne_mac hseparate hpeer (Ne.symm hid) port) ..
  · simp only [ReliablesHolder.opened] at hvalue ⊢
    by_cases hmac : mac = port.peerMac peer
    · subst hmac
      rw [update_self, Option.some.injEq] at hvalue
      exact ⟨peer.val.runtimeId, holder.nextPtr, ⟨port, refCnt, peer⟩, hvalue.symm, update_self ..,
        update_self .., rfl⟩
    · rw [update_of_ne hmac] at hvalue
      obtain ⟨runtimeId, ptr, link, rfl, hptr, hlink, hlinkMac⟩ := hlinked.mac hvalue
      exact ⟨runtimeId, ptr, link, rfl, by rw [update_of_ne (hother hptr).1, hptr],
        by rw [update_of_ne (hother hptr).2, hlink], hlinkMac⟩
  · simp only [ReliablesHolder.opened] at hlink ⊢
    by_cases hptr : ptr = holder.nextPtr
    · omega
    · rw [update_of_ne hptr] at hlink
      have := hlinked.fresh hlink
      omega

theorem recounted (hlink : holder.heap ptr = some link) (change : ℤ) :
    (holder.recounted ptr link change).Linked deployment state := by
  have hheap {other : ℕ} {old : ReliableLink} (hold : holder.heap other = some old) :
      ∃ found : ReliableLink, (holder.recounted ptr link change).heap other = some found ∧
        found.port = old.port ∧ found.remoteRtConfig = old.remoteRtConfig := by
    by_cases hother : other = ptr
    · subst hother
      cases hlink.symm.trans hold
      exact ⟨_, update_self .., rfl, rfl⟩
    · exact ⟨old, (update_of_ne hother ..).trans hold, rfl, rfl⟩
  refine ⟨fun hptr ↦ ?_, fun hvalue ↦ ?_, fun {other found} hfound ↦ ?_⟩
  · obtain ⟨old, hold, hplaced⟩ := hlinked.entry hptr
    obtain ⟨found, hfound, hport, hconfig⟩ := hheap hold
    refine ⟨found, hfound, ?_⟩
    obtain ⟨hid, hknown, hmac, hrole⟩ := hplaced
    rw [ReliableLink.mac, ← hport, ← hconfig] at hmac
    rw [← hconfig] at hid hknown
    exact ⟨hid, hknown, hmac, by rwa [hport, hconfig]⟩
  · obtain ⟨runtimeId, other, old, rfl, hptr, hold, rfl⟩ := hlinked.mac hvalue
    obtain ⟨found, hfound, hport, hconfig⟩ := hheap hold
    exact ⟨runtimeId, other, found, rfl, hptr, hfound, by rw [ReliableLink.mac, hport, hconfig]; rfl⟩
  · by_cases hother : other = ptr
    · subst hother
      exact hlinked.fresh hlink
    · exact hlinked.fresh ((update_of_ne hother ..).symm.trans hfound)

/-- The links may stay when the neighbours stay. -/
theorem of_sameNeighbours
    (hstate : ∀ role : Role, role.isDataPlane = true → state'.runtimes role = state.runtimes role) :
    holder.Linked deployment state' where
  entry hptr := by
    obtain ⟨link, hlink, hplaced⟩ := hlinked.entry hptr
    refine ⟨link, hlink, hplaced.id, hplaced.known, hplaced.mac, fun role hdata ↦ ?_⟩
    rw [hstate role hdata]
    exact hplaced.role role hdata
  mac := hlinked.mac
  fresh := hlinked.fresh

/-- Links stay when a peer without a link becomes a neighbour, or stops being one. -/
theorem of_absent (habsent : holder.reliables peer.val.runtimeId = none)
    (hpeer : deployment.runtimes peer.val.address = some peer)
    (hstate : RpcState.NeighboursExcept peer.val.address state state') : holder.Linked deployment state' where
  entry {runtimeId ptr} hptr := by
    obtain ⟨link, hlink, hplaced⟩ := hlinked.entry hptr
    have hid : peer.val.runtimeId ≠ runtimeId := by
      rintro rfl
      cases habsent.symm.trans hptr
    exact ⟨link, hlink, hplaced.frame rfl hstate (hplaced.ne_address hpeer hid)⟩
  mac := hlinked.mac
  fresh := hlinked.fresh

/-- There is no MAC address to forget of a peer without a link. -/
theorem delMac_of_absent (hseparate : deployment.Separate)
    (habsent : holder.reliables peer.val.runtimeId = none)
    (hpeer : deployment.runtimes peer.val.address = some peer) (port : Port) :
    holder.delMac (port.peerMac peer) = holder := by
  have hnone : holder.macToReliables (port.peerMac peer) = none := by
    rw [Option.eq_none_iff_forall_ne_some]
    intro value hvalue
    obtain ⟨runtimeId, ptr, link, -, hptr, hlink, hmac⟩ := hlinked.mac hvalue
    have hplaced := hlinked.entry_of_heap hptr hlink
    have hid := hplaced.id
    rw [hseparate.mac hplaced.known hpeer _ _ hmac] at hid
    exact absurd (habsent.symm.trans (hid ▸ hptr)) (by simp)
  rw [delMac, ← hnone, update_eq_self]

theorem closed (hseparate : deployment.Separate) (hptr : holder.reliables runtimeId = some ptr)
    (hlink : holder.heap ptr = some link)
    (hstate : RpcState.NeighboursExcept link.remoteRtConfig.val.address state state') :
    (holder.closed ptr runtimeId link.mac).Linked deployment state' := by
  have hclosed := hlinked.entry_of_heap hptr hlink
  have hother {other : Int32} {ptr' : ℕ} (hid : other ≠ runtimeId) (hptr' : holder.reliables other = some ptr') :
      ptr' ≠ ptr := fun heq ↦ hid (hlinked.ptr_injective (heq ▸ hptr') hptr)
  refine ⟨fun {other ptr'} hptr' ↦ ?_, fun {mac value} hvalue ↦ ?_, fun {ptr' found} hfound ↦ ?_⟩
  · simp only [ReliablesHolder.closed] at hptr' ⊢
    by_cases hid : other = runtimeId
    · rw [hid, update_self] at hptr'
      cases hptr'
    · rw [update_of_ne hid] at hptr'
      obtain ⟨found, hfound, hplaced⟩ := hlinked.entry hptr'
      have hne : link.remoteRtConfig.val.runtimeId ≠ other := fun heq ↦ hid (heq.symm.trans hclosed.id)
      refine ⟨found, by rw [update_of_ne (hother hid hptr'), hfound], ?_⟩
      refine hplaced.frame ?_ hstate (hplaced.ne_address hclosed.known hne)
      exact update_of_ne (hplaced.ne_mac hseparate hclosed.known hne _) ..
  · simp only [ReliablesHolder.closed] at hvalue ⊢
    by_cases hmac : mac = link.mac
    · rw [hmac, update_self] at hvalue
      cases hvalue
    · rw [update_of_ne hmac] at hvalue
      obtain ⟨other, ptr', found, rfl, hptr', hfound, hfoundMac⟩ := hlinked.mac hvalue
      have hid : other ≠ runtimeId := by
        rintro rfl
        cases hptr.symm.trans hptr'
        cases hlink.symm.trans hfound
        exact hmac hfoundMac.symm
      exact ⟨other, ptr', found, rfl, by rw [update_of_ne hid, hptr'],
        by rw [update_of_ne (hother hid hptr'), hfound], hfoundMac⟩
  · simp only [ReliablesHolder.closed] at hfound ⊢
    by_cases hptr' : ptr' = ptr
    · rw [hptr', update_self] at hfound
      cases hfound
    · rw [update_of_ne hptr'] at hfound
      exact hlinked.fresh hfound

theorem port_eq_control (hdisjoint : state.RolesDisjoint) (hptr : holder.reliables runtimeId = some ptr)
    (hlink : holder.heap ptr = some link) (hcontrol : role.isDataPlane = false)
    (hmem : link.remoteRtConfig.val.address ∈ state.runtimes role) : link.port = .control := by
  have hplaced := hlinked.entry_of_heap hptr hlink
  have hne (data : Role) (hdata : data.isDataPlane = true) : link.port ≠ data.port := by
    intro hport
    have hboth := hdisjoint _ data role hdata ((hplaced.role data hdata).1 hport) hmem
    exact absurd (hboth ▸ hdata) (by simp [hcontrol])
  cases hport : link.port with
  | input => exact absurd hport (hne .input rfl)
  | output => exact absurd hport (hne .output rfl)
  | control => rfl

variable (hseparate : deployment.Separate)

include hseparate

theorem link_eq {address : Address} (hpeer : deployment.runtimes address = some peer)
    (hptr : holder.reliables peer.val.runtimeId = some ptr) (hlink : holder.heap ptr = some link) :
    link.remoteRtConfig = peer :=
  hseparate.id (hlinked.entry_of_heap hptr hlink).known hpeer (hlinked.entry_of_heap hptr hlink).id

theorem acquire (hpeer : deployment.runtimes peer.val.address = some peer)
    (hacquire : holder.acquire peer = some holder')
    (hstate : ∀ role : Role, role.isDataPlane = true → state'.runtimes role = state.runtimes role)
    (hneighbour : ∀ role : Role, role.isDataPlane = true → peer.val.address ∉ state'.runtimes role) :
    holder'.Linked deployment state' := by
  rcases acquire_cases hacquire with ⟨ptr, link, -, hlink, rfl⟩ | ⟨habsent, rfl⟩
  · exact (hlinked.recounted hlink 1).of_sameNeighbours hstate
  · refine hlinked.opened hseparate habsent hpeer (fun other _ role hdata ↦ by rw [hstate role hdata])
      (fun role hdata ↦ iff_of_false ?_ (hneighbour role hdata)) 1
    cases role <;> simp_all [Role.port, Role.isDataPlane]

theorem release (hdisjoint : state.RolesDisjoint) {freed : Bool}
    (hpeer : deployment.runtimes peer.val.address = some peer)
    (hrelease : holder.release peer = some (holder', freed)) (hcontrol : role.isDataPlane = false)
    (hmem : peer.val.address ∈ state.runtimes role)
    (hstate : ∀ role : Role, role.isDataPlane = true → state'.runtimes role = state.runtimes role) :
    holder'.Linked deployment state' := by
  obtain ⟨ptr, link, hptr, hlink, hcases⟩ := release_cases hrelease
  have hconfig := hlinked.link_eq hseparate hpeer hptr hlink
  rcases hcases with ⟨-, rfl⟩ | ⟨-, rfl⟩
  · exact (hlinked.recounted hlink (-1)).of_sameNeighbours hstate
  · have hport := hlinked.port_eq_control hdisjoint hptr hlink hcontrol (hconfig ▸ hmem)
    have hmac : link.mac = link.remoteRtConfig.val.controlPortMac := by rw [ReliableLink.mac, hport]; rfl
    rw [← hmac]
    exact hlinked.closed hseparate hptr hlink fun other _ role hdata ↦ by rw [hstate role hdata]

theorem closeLink (hpeer : deployment.runtimes peer.val.address = some peer) (hdata : role.isDataPlane = true)
    (hmem : peer.val.address ∈ state.runtimes role)
    (hstate : RpcState.NeighboursExcept peer.val.address state state') :
    (holder.closeLink role.port peer).Linked deployment state' := by
  cases hptr : holder.reliables peer.val.runtimeId with
  | none =>
    rw [closeLink_of_absent hptr, hlinked.delMac_of_absent hseparate hptr hpeer]
    exact hlinked.of_absent hptr hpeer hstate
  | some =>
    obtain ⟨link, hlink, hplaced⟩ := hlinked.entry hptr
    have hconfig := hlinked.link_eq hseparate hpeer hptr hlink
    have hport : link.port = role.port := (hplaced.role role hdata).2 (hconfig ▸ hmem)
    have hmac : role.port.peerMac peer = link.mac := by rw [ReliableLink.mac, hport, hconfig]
    rw [closeLink_of_present hptr, hmac]
    exact hlinked.closed hseparate hptr hlink (hconfig ▸ hstate)

end Linked

end ReliablesHolder

namespace RpcState

variable {state : RpcState} {role : Role} {key : Address} {peer : Peer} {other : Role}

theorem runtimes_emplace_of_ne (hother : other ≠ role) :
    (state.emplace role key peer).runtimes other = state.runtimes other :=
  update_of_ne hother ..

theorem runtimes_erase_of_ne (hother : other ≠ role) :
    (state.erase role key).runtimes other = state.runtimes other :=
  update_of_ne hother ..

theorem lookup_emplace_new (hnew : key ∉ state.runtimes role) :
    ((state.emplace role key peer).runtimes role).lookup key = some peer := by
  simp only [emplace, update_self, RuntimeMap.emplace, if_neg hnew]
  exact AList.lookup_insert _

theorem lookup_emplace_old {address : Address} {found : Peer}
    (hlookup : (state.runtimes other).lookup address = some found) :
    ((state.emplace role key peer).runtimes other).lookup address = some found := by
  by_cases hrole : other = role
  · subst hrole
    simp only [emplace, update_self, RuntimeMap.emplace]
    split
    · exact hlookup
    · next hnew =>
      rw [AList.lookup_insert_ne, hlookup]
      rintro rfl
      exact hnew (mem_of_lookup hlookup)
  · rwa [runtimes_emplace_of_ne hrole]

theorem lookup_erase_old {address : Address} {found : Peer}
    (hlookup : (state.runtimes other).lookup address = some found) (hne : other = role → address ≠ key) :
    ((state.erase role key).runtimes other).lookup address = some found := by
  by_cases hrole : other = role
  · subst hrole
    simp only [erase, update_self]
    rw [AList.lookup_erase_ne (hne rfl), hlookup]
  · rwa [runtimes_erase_of_ne hrole]

theorem neighboursExcept_emplace : NeighboursExcept key state (state.emplace role key peer) := by
  intro other hother data hdata
  rw [mem_emplace, or_iff_left fun h ↦ hother h.2]

theorem neighboursExcept_erase : NeighboursExcept key state (state.erase role key) := by
  intro other hother data hdata
  rw [mem_erase, and_iff_left fun h ↦ hother h.2]

end RpcState

/-! ## Commands keep the links -/

/-- A command that makes a peer a neighbour finds no link to it. -/
def Worker.FindsNoLink (worker : Worker) (command : Command) : Prop :=
  command.operation = .addInputRuntime ∨ command.operation = .addOutputRuntime →
    worker.holder.reliables command.rtConfig.val.runtimeId = none

instance (worker : Worker) (command : Command) : Decidable (worker.FindsNoLink command) :=
  inferInstanceAs (Decidable (_ → _))

theorem Worker.linked_runTask {worker worker' : Worker} {state' : RpcState} {command : Command}
    {address : Address} (hseparate : deployment.Separate) (hformed : state.Formed deployment address)
    (hdisjoint : state.RolesDisjoint) (hdisjoint' : state'.RolesDisjoint)
    (heffect : state.Effect deployment command state') (hnoLink : worker.FindsNoLink command)
    (hlinked : worker.holder.Linked deployment state) (hrun : worker.runTask command = some worker') :
    worker'.holder.Linked deployment state' := by
  have hcontrolState {role : Role} (hcontrol : role.isDataPlane = false) {data : Role}
      (hdata : data.isDataPlane = true) : data ≠ role := by
    rintro rfl
    exact absurd hdata (by simp [hcontrol])
  cases heffect with
  | @added role _ peer hpeer =>
    obtain rfl := deployment.address_eq hpeer
    have hnow : peer.val.address ∈ (state.emplace role peer.val.address peer).runtimes role :=
      RpcState.mem_emplace.2 (.inr ⟨rfl, rfl⟩)
    have hholder := (Worker.runTask_add hrun).1
    split at hholder
    · next hdata =>
      have habsent : worker.holder.reliables peer.val.runtimeId = none := by
        apply hnoLink
        cases role <;> simp_all [Role.isDataPlane, Role.addOperation]
      rw [hholder, ReliablesHolder.openLink_of_absent habsent]
      refine hlinked.opened hseparate habsent hpeer RpcState.neighboursExcept_emplace (fun other hother ↦ ?_) 0
      constructor
      · intro hport
        have hrole : other = role := by
          cases role <;> cases other <;> simp_all [Role.port, Role.isDataPlane]
        exact hrole ▸ hnow
      · intro hmem
        rw [hdisjoint' _ other role hother hmem hnow]
    · next hcontrol =>
      rw [Bool.not_eq_true] at hcontrol
      refine hlinked.acquire hseparate hpeer hholder (fun data hdata ↦ ?_) fun data hdata hmem ↦ ?_
      · exact RpcState.runtimes_emplace_of_ne (hcontrolState hcontrol hdata)
      · exact hcontrolState hcontrol hdata (hdisjoint' _ data role hdata hmem hnow).symm
  | @deleted role _ peer hlookup =>
    have hpeer := (hformed.known hlookup).1
    obtain rfl := deployment.address_eq hpeer
    have hmem := RpcState.mem_of_lookup hlookup
    have hholder := (Worker.runTask_delete hrun).1
    split at hholder
    · next hdata =>
      rw [hholder]
      exact hlinked.closeLink hseparate hpeer hdata hmem RpcState.neighboursExcept_erase
    · next hcontrol =>
      rw [Bool.not_eq_true] at hcontrol
      obtain ⟨freed, hrelease⟩ := hholder
      exact hlinked.release hseparate hdisjoint hpeer hrelease hcontrol hmem fun data hdata ↦
        RpcState.runtimes_erase_of_ne (hcontrolState hcontrol hdata)
  | @kept role _ peer hlookup hkind =>
    have hpeer := (hformed.known hlookup).1
    obtain rfl := deployment.address_eq hpeer
    have hmem := RpcState.mem_of_lookup hlookup
    have hcontrol : role.isDataPlane = false := by
      rcases hkind with rfl | rfl <;> rfl
    have hholder := (Worker.runTask_delete hrun).1
    rw [if_neg (by simp [hcontrol])] at hholder
    obtain ⟨freed, hrelease⟩ := hholder
    exact hlinked.release hseparate hdisjoint hpeer hrelease hcontrol hmem fun _ _ ↦ rfl

/-- Flows change reference counts only. -/
theorem Worker.linked_runFlow {worker worker' : Worker} {event : FlowEvent}
    (hlinked : worker.holder.Linked deployment state) (hrun : worker.runFlow event = some worker') :
    worker'.holder.Linked deployment state := by
  rcases (runFlow_cases hrun).1 with hsame | ⟨_, _, change, hlink, hcount⟩
  · exact hsame ▸ hlinked
  · exact hcount ▸ hlinked.recounted hlink change

namespace Site

/-- The command that a step of the control plane hands to a worker. -/
def command (site : Site) (input : ControlInput) : Option (Worker × Command) := do
  let (_, emission) ← site.plane.emit input
  let (address, command) ← emission
  let worker ← site.workers address
  some (worker, command)

/-- `AddInputRt` is handled by a runtime that has the caller in no control-plane role, and a peer becomes a
neighbour only of a worker without a link to it. -/
def KeepsLinks (site : Site) : SiteInput → Prop
  | .control input => site.plane.KeepsRolesApart input ∧ ∀ entry ∈ site.command input, entry.1.FindsNoLink entry.2
  | .flow _ _ => True

instance (site : Site) (input : SiteInput) : Decidable (site.KeepsLinks input) :=
  match input with
  | .control _ => inferInstanceAs (Decidable (_ ∧ _))
  | .flow _ _ => inferInstanceAs (Decidable True)

variable {deployment : Deployment} {site site' : Site}

theorem workers_setWorker {address other : Address} {worker found : Worker}
    (hfound : (site.setWorker address worker).workers other = some found) :
    other = address ∧ found = worker ∨ other ≠ address ∧ site.workers other = some found := by
  by_cases hother : other = address
  · subst hother
    simp only [setWorker, update_self, Option.some.injEq] at hfound
    exact .inl ⟨rfl, hfound.symm⟩
  · simp only [setWorker, update_of_ne hother] at hfound
    exact .inr ⟨hother, hfound⟩

/-- A step of the control plane hands at most one command to one worker. -/
theorem step_control {input : ControlInput} (hstep : site.step (.control input) = some site') :
    ∃ plane emission, site.plane.emit input = some (plane, emission) ∧
      (emission = none ∧ site' = { site with plane := plane } ∨
        ∃ address command worker worker', emission = some (address, command) ∧
          site.workers address = some worker ∧ worker.runTask command = some worker' ∧
          site' = { site with plane := plane }.setWorker address worker') := by
  obtain ⟨⟨plane, emission⟩, hemit, hdeliver⟩ := bind_eq_some_iff.1 hstep
  refine ⟨plane, emission, hemit, ?_⟩
  cases emission with
  | none => exact .inl ⟨rfl, (Option.some.inj hdeliver).symm⟩
  | some sent =>
    obtain ⟨address, command⟩ := sent
    obtain ⟨worker, hworker, hdeliver⟩ := bind_eq_some_iff.1 hdeliver
    obtain ⟨worker', hrun, hdeliver⟩ := bind_eq_some_iff.1 hdeliver
    exact .inr ⟨address, command, worker, worker', rfl, hworker, hrun, (Option.some.inj hdeliver).symm⟩

theorem step_flow {address : Address} {event : FlowEvent} (hstep : site.step (.flow address event) = some site') :
    ∃ worker worker', site.workers address = some worker ∧ worker.runFlow event = some worker' ∧
      site' = site.setWorker address worker' := by
  obtain ⟨worker, hworker, hstep⟩ := bind_eq_some_iff.1 hstep
  obtain ⟨worker', hrun, hstep⟩ := bind_eq_some_iff.1 hstep
  exact ⟨worker, worker', hworker, hrun, (Option.some.inj hstep).symm⟩

/-- Every worker belongs to a runtime of the control plane. -/
structure Staffed (deployment : Deployment) (site : Site) : Prop where
  formed : site.plane.Formed deployment
  node : ∀ {address worker}, site.workers address = some worker → ∃ node, site.plane.nodes address = some node

/-- What a step can do to one runtime: nothing, a command with a change of the maps, or an event of a flow. -/
inductive Visit (deployment : Deployment) (site : Site) (input : SiteInput) (state : RpcState) (worker : Worker)
    (state' : RpcState) (worker' : Worker) : Prop
  | aside : state' = state → worker' = worker → Visit deployment site input state worker state' worker'
  | task {control : ControlInput} {command : Command} : input = .control control →
      (worker, command) ∈ site.command control → state.Effect deployment command state' →
      worker.runTask command = some worker' → Visit deployment site input state worker state' worker'
  | flow {address : Address} {event : FlowEvent} : input = .flow address event →
      site.workers address = some worker → state' = state → worker.runFlow event = some worker' →
      Visit deployment site input state worker state' worker'

namespace Staffed

theorem visit (hstaffed : site.Staffed deployment) {input : SiteInput} (hstep : site.step input = some site')
    {address : Address} {worker' : Worker} (hworker' : site'.workers address = some worker') :
    ∃ worker node node', site.workers address = some worker ∧ site.plane.nodes address = some node ∧
      site'.plane.nodes address = some node' ∧ Visit deployment site input node.rpc worker node'.rpc worker' := by
  cases input with
  | control =>
    obtain ⟨plane, emission, hemit, hcases⟩ := step_control hstep
    have hturn := Plane.turn_of_emit hemit
    rcases hcases with ⟨rfl, rfl⟩ | ⟨target, command, worker, found, rfl, hworker, hrun, rfl⟩
    · obtain ⟨node, hnode⟩ := hstaffed.node hworker'
      obtain ⟨node', hnode', hrpc⟩ := hturn.node_of_quiet hnode
      exact ⟨worker', node, node', hworker', hnode, hnode', .aside hrpc.symm rfl⟩
    · obtain ⟨node, node', hnode, hnodes, heffect⟩ := hturn.effect hstaffed.formed
      rcases workers_setWorker hworker' with ⟨rfl, rfl⟩ | ⟨hother, hold⟩
      · have hnode' : plane.nodes address = some node' := by rw [hnodes]; exact update_self ..
        exact ⟨worker, node, node', hworker, hnode, hnode',
          .task rfl (by simp [Site.command, hemit, hworker]) heffect hrun⟩
      · obtain ⟨node, hnode⟩ := hstaffed.node hold
        refine ⟨worker', node, node, hold, hnode, ?_, .aside rfl rfl⟩
        change plane.nodes address = some node
        rw [hnodes]
        exact (update_of_ne hother ..).trans hnode
  | flow =>
    obtain ⟨worker, found, hworker, hrun, rfl⟩ := step_flow hstep
    rcases workers_setWorker hworker' with ⟨rfl, rfl⟩ | ⟨-, hold⟩
    · obtain ⟨node, hnode⟩ := hstaffed.node hworker
      exact ⟨worker, node, node, hworker, hnode, hnode, .flow rfl hworker rfl hrun⟩
    · obtain ⟨node, hnode⟩ := hstaffed.node hold
      exact ⟨worker', node, node, hold, hnode, hnode, .aside rfl rfl⟩

theorem step (hstaffed : site.Staffed deployment) {input : SiteInput} (hstep : site.step input = some site') :
    site'.Staffed deployment := by
  constructor
  · cases input with
    | control =>
      obtain ⟨plane, emission, hemit, hcases⟩ := step_control hstep
      have hformed := hstaffed.formed.turn (Plane.turn_of_emit hemit)
      rcases hcases with ⟨-, rfl⟩ | ⟨_, _, _, _, -, -, -, rfl⟩ <;> exact hformed
    | flow =>
      obtain ⟨_, _, -, -, rfl⟩ := step_flow hstep
      exact hstaffed.formed
  · intro address worker' hworker'
    obtain ⟨-, -, node', -, -, hnode', -⟩ := hstaffed.visit hstep hworker'
    exact ⟨node', hnode'⟩

theorem boot (deployment : Deployment) : deployment.bootSite.Staffed deployment where
  formed := Plane.Formed.boot deployment
  node hworker := by
    obtain ⟨peer, hpeer, -⟩ := map_eq_some_iff.1 hworker
    exact ⟨⟨Deployment.bootRpc peer, .idle⟩, by simp [Deployment.bootSite, Deployment.boot, hpeer]⟩

end Staffed

/-! ## Runs -/

structure Linked (deployment : Deployment) (site : Site) : Prop where
  roles : site.plane.RolesApart deployment
  worker : ∀ {address worker}, site.workers address = some worker →
    ∃ node, site.plane.nodes address = some node ∧ worker.holder.Linked deployment node.rpc

theorem Linked.staffed (hlinked : site.Linked deployment) : site.Staffed deployment where
  formed := hlinked.roles.formed
  node hworker := by
    obtain ⟨node, hnode, -⟩ := hlinked.worker hworker
    exact ⟨node, hnode⟩

theorem Linked.step (hseparate : deployment.Separate) (hlinked : site.Linked deployment) {input : SiteInput}
    (hkeeps : site.KeepsLinks input) (hstep : site.step input = some site') : site'.Linked deployment := by
  have hroles : site'.plane.RolesApart deployment := by
    cases input with
    | control =>
      obtain ⟨plane, emission, hemit, hcases⟩ := step_control hstep
      have hturned := hlinked.roles.turn hkeeps.1 (Plane.turn_of_emit hemit)
      rcases hcases with ⟨-, rfl⟩ | ⟨_, _, _, _, -, -, -, rfl⟩ <;> exact hturned
    | flow =>
      obtain ⟨_, _, -, -, rfl⟩ := step_flow hstep
      exact hlinked.roles
  refine ⟨hroles, fun {address worker'} hworker' ↦ ?_⟩
  obtain ⟨worker, node, node', hworker, hnode, hnode', hvisit⟩ := hlinked.staffed.visit hstep hworker'
  obtain ⟨_, hsame, hholder⟩ := hlinked.worker hworker
  cases hnode.symm.trans hsame
  refine ⟨node', hnode', ?_⟩
  cases hvisit with
  | aside hrpc hworker =>
    rw [hrpc, hworker]
    exact hholder
  | task hinput hcommand heffect hrun =>
    subst hinput
    exact Worker.linked_runTask hseparate (hlinked.roles.formed.node hnode) (hlinked.roles.disjoint hnode)
      (hroles.disjoint hnode') heffect (hkeeps.2 _ hcommand) hholder hrun
  | flow _ _ hrpc hrun =>
    rw [hrpc]
    exact Worker.linked_runFlow hholder hrun

theorem Linked.boot (deployment : Deployment) : deployment.bootSite.Linked deployment where
  roles := Plane.RolesApart.boot deployment
  worker hworker := by
    obtain ⟨peer, hpeer, rfl⟩ := map_eq_some_iff.1 hworker
    refine ⟨⟨Deployment.bootRpc peer, .idle⟩, by simp [Deployment.bootSite, Deployment.boot, hpeer], ?_⟩
    exact ⟨fun h ↦ absurd h (by simp [Worker.boot]), fun h ↦ absurd h (by simp [Worker.boot]),
      fun h ↦ absurd h (by simp [Worker.boot])⟩

theorem Linked.of_reachable (hseparate : deployment.Separate)
    (hreach : deployment.siteSystem.Reachable KeepsLinks site) : site.Linked deployment :=
  hreach.invariant (fun _ h ↦ h ▸ Linked.boot deployment) fun _ _ _ hs hkeeps hstep ↦
    hs.step hseparate hkeeps hstep

/-- In every run that meets the condition, `mac_to_reliables_` points to live links in `reliables_`, and every
such link is found under the MAC address from which the peer sends on it. -/
theorem links_agree (deployment : Deployment) (hseparate : deployment.Separate) (site : Site)
    (hreach : deployment.siteSystem.Reachable KeepsLinks site) (address : Address) (worker : Worker)
    (hworker : site.workers address = some worker) :
    (∀ mac value, worker.holder.macToReliables mac = some value →
      ∃ runtimeId ptr link, value = some ptr ∧ worker.holder.reliables runtimeId = some ptr ∧
        worker.holder.heap ptr = some link) ∧
      ∀ runtimeId ptr, worker.holder.reliables runtimeId = some ptr →
        ∃ link, worker.holder.heap ptr = some link ∧ link.remoteRtConfig.val.runtimeId = runtimeId ∧
          worker.holder.macToReliables (link.port.peerMac link.remoteRtConfig) = some (some ptr) := by
  obtain ⟨node, -, hlinked⟩ := (Linked.of_reachable hseparate hreach).worker hworker
  refine ⟨fun mac value hvalue ↦ ?_, fun runtimeId ptr hptr ↦ ?_⟩
  · obtain ⟨runtimeId, ptr, link, hvalue, hptr, hlink, -⟩ := hlinked.mac hvalue
    exact ⟨runtimeId, ptr, link, hvalue, hptr, hlink⟩
  · obtain ⟨link, hlink, hplaced⟩ := hlinked.entry hptr
    exact ⟨link, hlink, hplaced.id, hplaced.mac⟩

end Site

theorem twoRuntimes_separate : twoRuntimes.Separate where
  id {address other peer rival} hpeer hrival hid := by
    simp only [twoRuntimes] at hpeer hrival
    split_ifs at hpeer hrival <;> obtain rfl := Option.some.inj hpeer <;> obtain rfl := Option.some.inj hrival <;>
      first | rfl | exact absurd hid (by decide +kernel)
  mac {address other peer rival} hpeer hrival port port' hmac := by
    simp only [twoRuntimes] at hpeer hrival
    split_ifs at hpeer hrival <;> obtain rfl := Option.some.inj hpeer <;> obtain rfl := Option.some.inj hrival <;>
      first | rfl | (cases port <;> cases port' <;> exact absurd hmac (by decide +kernel))

namespace Site

/-- The second runtime becomes an output of the first, and has a link to it. -/
theorem links_agree_two_runtimes :
    ∃ site worker,
      twoRuntimes.siteSystem.run twoRuntimes.bootSite ((negotiated .addOutputRts 0).map .control) = some site ∧
      site.workers secondPeer.val.address = some worker ∧
      worker.holder.macToReliables firstPeer.val.outputPortMac = some (some 0) ∧
      ∃ runtimeId link, worker.holder.reliables runtimeId = some 0 ∧ worker.holder.heap 0 = some link := by
  obtain ⟨site, hsite, worker, hworker, hmac⟩ :
      ∃ site ∈ twoRuntimes.siteSystem.runChecked (fun site input ↦ decide (site.KeepsLinks input))
        twoRuntimes.bootSite ((negotiated .addOutputRts 0).map .control),
      ∃ worker ∈ site.workers secondPeer.val.address,
        worker.holder.macToReliables firstPeer.val.outputPortMac = some (some 0) := by decide +kernel
  have hreach := TransitionSystem.Reachable.replayDecided rfl hsite
  obtain ⟨runtimeId, ptr, link, hptr, hreliable, hlink⟩ :=
    (links_agree twoRuntimes twoRuntimes_separate site hreach _ worker hworker).1 _ _ hmac
  cases hptr
  exact ⟨site, worker, TransitionSystem.run_of_runChecked hsite, hworker, hmac, runtimeId, link, hreliable, hlink⟩

/-- After the one-sided delete the second runtime has a null pointer for the MAC address of the first. -/
theorem null_link_after_one_sided_delete :
    ∃ site worker,
      twoRuntimes.siteSystem.run twoRuntimes.bootSite (oneSidedDelete.map .control) = some site ∧
      site.workers secondPeer.val.address = some worker ∧
      worker.holder.macToReliables firstPeer.val.outputPortMac = some none := by
  exact ⟨_, _, rfl, rfl, by decide +kernel⟩

end Site

end NfvActor.Control
