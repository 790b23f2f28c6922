import Mathlib.Data.List.Perm.Basic
import Mathlib.Tactic
import NfvActor.Control.Links

/-!
# Reference counts

A link on the control port is shared by the control-plane roles of its peer and by the flows that replicate to
it. Its count is the number of these, as long as no migration target or source is deleted: that gives a
reference back although the role is kept.
-/

namespace NfvActor.Control

open NfvActor.Foundation
open Function
open Option (bind_eq_some_iff map_eq_some_iff)

/-- The number of control-plane roles in which a peer is recorded. -/
def RpcState.controlRoles (state : RpcState) (address : Address) : ℕ :=
  [Role.replica, .storage, .migrationTarget, .migrationSource].countP fun role ↦ address ∈ state.runtimes role

namespace RpcState

variable {state : RpcState} {role : Role} {key address : Address} {peer : Peer}

theorem controlRoles_pos (hcontrol : role.isDataPlane = false) (hmem : address ∈ state.runtimes role) :
    0 < state.controlRoles address := by
  rw [controlRoles, List.countP_pos_iff]
  refine ⟨role, ?_, by simpa using hmem⟩
  cases role <;> simp_all [Role.isDataPlane]

theorem controlRoles_congr {state' : RpcState} (hsame : ∀ role : Role, role.isDataPlane = false →
      (address ∈ state'.runtimes role ↔ address ∈ state.runtimes role)) :
    state'.controlRoles address = state.controlRoles address := by
  simp only [controlRoles, List.countP_cons, List.countP_nil, decide_eq_true_eq, hsame .replica rfl,
    hsame .storage rfl, hsame .migrationTarget rfl, hsame .migrationSource rfl]

theorem controlRoles_emplace (hcontrol : role.isDataPlane = false) (hnew : key ∉ state.runtimes role) :
    (state.emplace role key peer).controlRoles key = state.controlRoles key + 1 := by
  simp only [controlRoles, List.countP_cons, List.countP_nil, decide_eq_true_eq, mem_emplace, and_true]
  cases role <;> simp_all [Role.isDataPlane] <;> omega

theorem controlRoles_erase (hcontrol : role.isDataPlane = false) (hmem : key ∈ state.runtimes role) :
    (state.erase role key).controlRoles key + 1 = state.controlRoles key := by
  simp only [controlRoles, List.countP_cons, List.countP_nil, decide_eq_true_eq, mem_erase, and_true]
  cases role <;> simp_all [Role.isDataPlane] <;> omega

theorem controlRoles_emplace_of_ne (hne : address ≠ key) :
    (state.emplace role key peer).controlRoles address = state.controlRoles address :=
  controlRoles_congr fun other _ ↦ by rw [mem_emplace, or_iff_left fun h ↦ hne h.2]

theorem controlRoles_erase_of_ne (hne : address ≠ key) :
    (state.erase role key).controlRoles address = state.controlRoles address :=
  controlRoles_congr fun other _ ↦ by rw [mem_erase, and_iff_left fun h ↦ hne h.2]

end RpcState

/-- The count of every link on the control port is the number of its holders. -/
def ReliablesHolder.Exact (holder : ReliablesHolder) (holders : ℕ → Address → ℤ) : Prop :=
  ∀ runtimeId ptr link, holder.reliables runtimeId = some ptr → holder.heap ptr = some link →
    link.port = .control → link.refCnt = holders ptr link.remoteRtConfig.val.address

namespace ReliablesHolder

variable {deployment : Deployment} {state : RpcState} {holder : ReliablesHolder}
  {holders holders' : ℕ → Address → ℤ}

theorem Linked.distinct (hlinked : holder.Linked deployment state) {left right : Int32} {ptr ptr' : ℕ}
    {link link' : ReliableLink} (hptr : holder.reliables left = some ptr) (hlink : holder.heap ptr = some link)
    (hptr' : holder.reliables right = some ptr') (hlink' : holder.heap ptr' = some link') (hne : right ≠ left) :
    ptr' ≠ ptr ∧ link'.remoteRtConfig.val.address ≠ link.remoteRtConfig.val.address := by
  have hplaced := hlinked.entry_of_heap hptr hlink
  refine ⟨fun heq ↦ hne (hlinked.ptr_injective (heq ▸ hptr') hptr), ?_⟩
  exact (hlinked.entry_of_heap hptr' hlink').ne_address hplaced.known fun heq ↦
    hne (heq.symm.trans hplaced.id)

namespace Exact

variable (hexact : holder.Exact holders) (hlinked : holder.Linked deployment state)

include hexact hlinked

theorem recounted {runtimeId : Int32} {ptr : ℕ} {link : ReliableLink}
    (hptr : holder.reliables runtimeId = some ptr) (hlink : holder.heap ptr = some link) {change : ℤ}
    (hself : holders' ptr link.remoteRtConfig.val.address =
      holders ptr link.remoteRtConfig.val.address + change)
    (hother : ∀ other address, other ≠ ptr → address ≠ link.remoteRtConfig.val.address →
      holders' other address = holders other address) : (holder.recounted ptr link change).Exact holders' := by
  intro other ptr' found hptr' hfound hport
  by_cases hid : other = runtimeId
  · subst hid
    cases hptr'.symm.trans hptr
    cases hfound.symm.trans (update_self ..)
    change link.refCnt + change = _
    rw [hself, hexact _ _ _ hptr hlink hport]
  · obtain ⟨hne, haddress⟩ : ptr' ≠ ptr ∧ _ := by
      obtain ⟨old, hold, -⟩ := hlinked.entry hptr'
      have hdistinct := hlinked.distinct hptr hlink hptr' hold hid
      have hsame : found = old := by
        have := (update_of_ne hdistinct.1 ..).symm.trans hfound
        exact Option.some.inj (this.symm.trans hold)
      exact ⟨hdistinct.1, hsame ▸ hdistinct.2⟩
    have hold : holder.heap ptr' = some found := (update_of_ne hne ..).symm.trans hfound
    rw [hother _ _ hne haddress, hexact _ _ _ hptr' hold hport]

theorem opened {port : Port} {peer : Peer} (hpeer : deployment.runtimes peer.val.address = some peer)
    {refCnt : ℤ} (hself : port = .control → refCnt = holders' holder.nextPtr peer.val.address)
    (hother : ∀ other address, other ≠ holder.nextPtr → address ≠ peer.val.address →
      holders' other address = holders other address) : (holder.opened port peer refCnt).Exact holders' := by
  intro other ptr' found hptr' hfound hport
  by_cases hid : other = peer.val.runtimeId
  · subst hid
    obtain rfl : ptr' = holder.nextPtr := Option.some.inj (hptr'.symm.trans (update_self ..))
    cases hfound.symm.trans (update_self ..)
    exact hself hport
  · have hptr : holder.reliables other = some ptr' := (update_of_ne hid ..).symm.trans hptr'
    obtain ⟨old, hold, hplaced⟩ := hlinked.entry hptr
    have hne : ptr' ≠ holder.nextPtr := (hlinked.fresh hold).ne
    obtain rfl : found = old := Option.some.inj (hfound.symm.trans ((update_of_ne hne ..).trans hold))
    rw [hother _ _ hne (hplaced.ne_address hpeer (Ne.symm hid)), hexact _ _ _ hptr hold hport]

theorem closed {runtimeId : Int32} {ptr : ℕ} {link : ReliableLink} {mac : UInt64}
    (hptr : holder.reliables runtimeId = some ptr) (hlink : holder.heap ptr = some link)
    (hother : ∀ other address, other ≠ ptr → address ≠ link.remoteRtConfig.val.address →
      holders' other address = holders other address) : (holder.closed ptr runtimeId mac).Exact holders' := by
  intro other ptr' found hptr' hfound hport
  by_cases hid : other = runtimeId
  · subst hid
    exact absurd ((update_self ..).symm.trans hptr') (by simp)
  · have hold : holder.reliables other = some ptr' := (update_of_ne hid ..).symm.trans hptr'
    obtain ⟨old, hheap, -⟩ := hlinked.entry hold
    obtain ⟨hne, haddress⟩ := hlinked.distinct hptr hlink hold hheap hid
    obtain rfl : found = old := Option.some.inj (hfound.symm.trans ((update_of_ne hne ..).trans hheap))
    rw [hother _ _ hne haddress, hexact _ _ _ hold hheap hport]

end Exact

end ReliablesHolder

/-! ## The invariant of the references -/

theorem count_eraseIdx {α : Type} [BEq α] {list : List α} {index : ℕ} {left : α}
    (hleft : list[index]? = some left) (value : α) :
    list.count value = (list.eraseIdx index).count value + if left == value then 1 else 0 := by
  obtain ⟨hbound, rfl⟩ := List.getElem?_eq_some_iff.1 hleft
  rw [← (List.getElem_cons_eraseIdx_perm hbound).count_eq value, List.count_cons]

/-- The roles and flows that hold a link. -/
def holdersOf (state : RpcState) (flows : List (Option ℕ)) (ptr : ℕ) (address : Address) : ℤ :=
  state.controlRoles address + flows.count (some ptr)

/-- The replicas for new flows are recorded, each once. -/
def RpcState.Offers (state : RpcState) (replicas : List Int32) : Prop :=
  replicas.Nodup ∧ ∀ runtimeId ∈ replicas,
    ∃ key peer, (state.runtimes .replica).lookup key = some peer ∧ peer.val.runtimeId = runtimeId

/-- Counts are exact, roles and flows find their links, and new flows are given recorded replicas. -/
structure Worker.Counted (state : RpcState) (worker : Worker) : Prop where
  exact : worker.holder.Exact (holdersOf state worker.flows)
  held : ∀ {role key peer}, role.isDataPlane = false → (state.runtimes role).lookup key = some peer →
    ∃ ptr, worker.holder.reliables peer.val.runtimeId = some ptr
  flow : ∀ {ptr}, some ptr ∈ worker.flows → ∃ runtimeId link, worker.holder.reliables runtimeId = some ptr ∧
    worker.holder.heap ptr = some link ∧ link.port = .control
  replicas : state.Offers worker.replicasRrlist

namespace Worker.Counted

variable {deployment : Deployment} {worker worker' : Worker} {state state' : RpcState} {address : Address}
  {role : Role} {peer : Peer} {link : ReliableLink} {runtimeId : Int32} {ptr other : ℕ} {flows : List (Option ℕ)}

variable (hcounted : worker.Counted state)

include hcounted

theorem not_held_of_port (hlink : worker.holder.heap ptr = some link) (hport : link.port ≠ .control) :
    some ptr ∉ worker.flows := by
  intro hmem
  obtain ⟨-, found, -, hfound, hcontrol⟩ := hcounted.flow hmem
  exact hport (Option.some.inj (hlink.symm.trans hfound) ▸ hcontrol)

theorem offers_add (hseparate : deployment.Separate) (hformed : state.Formed deployment address)
    (hpeer : deployment.runtimes peer.val.address = some peer) (hnew : peer.val.address ∉ state.runtimes role) :
    (state.emplace role peer.val.address peer).Offers (worker.rrlistAdd role peer.val.runtimeId) := by
  have hold : (state.emplace role peer.val.address peer).Offers worker.replicasRrlist := by
    refine ⟨hcounted.replicas.1, fun runtimeId hmem ↦ ?_⟩
    obtain ⟨key, found, hlookup, hid⟩ := hcounted.replicas.2 runtimeId hmem
    exact ⟨key, found, RpcState.lookup_emplace_old hlookup, hid⟩
  rw [Worker.rrlistAdd]
  split
  · next hrole =>
    subst hrole
    refine ⟨List.nodup_append.2 ⟨hold.1, List.nodup_singleton _, ?_⟩, fun runtimeId hmem ↦ ?_⟩
    · rintro runtimeId hmem _ hself rfl
      obtain rfl := List.mem_singleton.1 hself
      obtain ⟨key, found, hlookup, hid⟩ := hcounted.replicas.2 _ hmem
      have hknown := (hformed.known hlookup).1
      obtain rfl := hseparate.id hknown hpeer hid
      rw [deployment.address_eq hknown] at hnew
      exact hnew (RpcState.mem_of_lookup hlookup)
    · rcases List.mem_append.1 hmem with hmem | hself
      · exact hold.2 runtimeId hmem
      · obtain rfl := List.mem_singleton.1 hself
        exact ⟨peer.val.address, peer, RpcState.lookup_emplace_new hnew, rfl⟩
  · exact hold

theorem offers_delete (hformed : state.Formed deployment address)
    (hpeer : deployment.runtimes peer.val.address = some peer) (role : Role) :
    (state.erase role peer.val.address).Offers (worker.rrlistDelete role peer.val.runtimeId) := by
  rw [Worker.rrlistDelete]
  split
  · refine ⟨hcounted.replicas.1.erase _, fun runtimeId hmem ↦ ?_⟩
    rw [hcounted.replicas.1.mem_erase_iff] at hmem
    obtain ⟨key, found, hlookup, hid⟩ := hcounted.replicas.2 runtimeId hmem.2
    refine ⟨key, found, RpcState.lookup_erase_old hlookup fun _ hkey ↦ hmem.1 ?_, hid⟩
    have hknown := (hformed.known hlookup).1
    rw [hkey, hpeer, Option.some.injEq] at hknown
    rw [← hid, hknown]
  · next hrole =>
    refine ⟨hcounted.replicas.1, fun runtimeId hmem ↦ ?_⟩
    obtain ⟨key, found, hlookup, hid⟩ := hcounted.replicas.2 runtimeId hmem
    exact ⟨key, found, RpcState.lookup_erase_old hlookup fun hsame ↦ absurd hsame.symm hrole, hid⟩

variable (hlinked : worker.holder.Linked deployment state) (hreplicas : state'.Offers worker'.replicasRrlist)

include hlinked hreplicas

/-- The count of one link changes with its holders. -/
theorem of_recounted (hptr : worker.holder.reliables runtimeId = some ptr)
    (hlink : worker.holder.heap ptr = some link) {change : ℤ}
    (hholder : worker'.holder = worker.holder.recounted ptr link change)
    (hself : holdersOf state' worker'.flows ptr link.remoteRtConfig.val.address =
      holdersOf state worker.flows ptr link.remoteRtConfig.val.address + change)
    (hother : ∀ other key, other ≠ ptr → key ≠ link.remoteRtConfig.val.address →
      holdersOf state' worker'.flows other key = holdersOf state worker.flows other key)
    (hheld : ∀ {role key found}, role.isDataPlane = false → (state'.runtimes role).lookup key = some found →
      ∃ ptr, worker.holder.reliables found.val.runtimeId = some ptr)
    (hflow : ∀ {other}, some other ∈ worker'.flows → some other ∈ worker.flows ∨ other = ptr ∧ link.port = .control) :
    worker'.Counted state' := by
  refine ⟨?_, fun hrole hlookup ↦ ?_, fun {other} hmem ↦ ?_, hreplicas⟩ <;> rw [hholder]
  · exact hcounted.exact.recounted hlinked hptr hlink hself hother
  · exact hheld hrole hlookup
  · by_cases heq : other = ptr
    · subst heq
      rcases hflow hmem with hold | ⟨-, hport⟩
      · obtain ⟨_, found, -, hfound, hport⟩ := hcounted.flow hold
        cases hlink.symm.trans hfound
        exact ⟨runtimeId, _, hptr, update_self .., hport⟩
      · exact ⟨runtimeId, _, hptr, update_self .., hport⟩
    · obtain ⟨found, entry, hfound, hentry, hport⟩ := hcounted.flow ((hflow hmem).resolve_right fun h ↦ heq h.1)
      exact ⟨found, entry, hfound, (update_of_ne heq ..).trans hentry, hport⟩

variable (hflows : worker'.flows = worker.flows)

include hflows

/-- A link is made for a peer that has none. -/
theorem of_opened (hpeer : deployment.runtimes peer.val.address = some peer)
    (habsent : worker.holder.reliables peer.val.runtimeId = none) {port : Port} {refCnt : ℕ}
    (hholder : worker'.holder = worker.holder.opened port peer refCnt)
    (hself : port = .control → refCnt = state'.controlRoles peer.val.address)
    (hother : ∀ key ≠ peer.val.address, state'.controlRoles key = state.controlRoles key)
    (hheld : ∀ {role key found}, role.isDataPlane = false → (state'.runtimes role).lookup key = some found →
      (state.runtimes role).lookup key = some found ∨ found = peer) : worker'.Counted state' := by
  refine ⟨?_, fun {role key found} hrole hlookup ↦ ?_, fun {other} hmem ↦ ?_, hreplicas⟩ <;> rw [hholder]
  · rw [hflows]
    refine hcounted.exact.opened hlinked hpeer (fun hport ↦ ?_) fun ptr key _ hkey ↦ ?_
    · have hunheld : worker.flows.count (some worker.holder.nextPtr) = 0 := by
        refine List.count_eq_zero_of_not_mem fun hmem ↦ ?_
        obtain ⟨-, found, -, hfound, -⟩ := hcounted.flow hmem
        exact absurd (hlinked.fresh hfound) (by omega)
      rw [holdersOf, hunheld, hself hport]
      rfl
    · rw [holdersOf, hother key hkey, holdersOf]
  · by_cases hid : found.val.runtimeId = peer.val.runtimeId
    · rw [hid]
      exact ⟨_, update_self ..⟩
    · have hold := (hheld hrole hlookup).resolve_right fun heq ↦ hid (by rw [heq])
      obtain ⟨ptr, hptr⟩ := hcounted.held hrole hold
      exact ⟨ptr, (update_of_ne hid ..).trans hptr⟩
  · obtain ⟨runtimeId, found, hptr, hfound, hport⟩ := hcounted.flow (hflows ▸ hmem)
    have hid : runtimeId ≠ peer.val.runtimeId := by
      rintro rfl
      cases habsent.symm.trans hptr
    exact ⟨runtimeId, found, (update_of_ne hid ..).trans hptr,
      (update_of_ne (hlinked.fresh hfound).ne ..).trans hfound, hport⟩

/-- A link that nobody holds is freed. -/
theorem of_closed (hptr : worker.holder.reliables runtimeId = some ptr)
    (hlink : worker.holder.heap ptr = some link) (hfree : some ptr ∉ worker.flows) {mac : UInt64}
    (hholder : worker'.holder = worker.holder.closed ptr runtimeId mac)
    (hother : ∀ key ≠ link.remoteRtConfig.val.address, state'.controlRoles key = state.controlRoles key)
    (hheld : ∀ {role key found}, role.isDataPlane = false → (state'.runtimes role).lookup key = some found →
      (state.runtimes role).lookup key = some found ∧ found.val.runtimeId ≠ runtimeId) :
    worker'.Counted state' := by
  refine ⟨?_, fun {role key found} hrole hlookup ↦ ?_, fun {other} hmem ↦ ?_, hreplicas⟩ <;> rw [hholder]
  · rw [hflows]
    refine hcounted.exact.closed hlinked hptr hlink fun ptr key _ hkey ↦ ?_
    rw [holdersOf, hother key hkey, holdersOf]
  · obtain ⟨hold, hid⟩ := hheld hrole hlookup
    obtain ⟨found, hfound⟩ := hcounted.held hrole hold
    exact ⟨found, (update_of_ne hid ..).trans hfound⟩
  · rw [hflows] at hmem
    obtain ⟨runtimeId', found, hptr', hfound, hport⟩ := hcounted.flow hmem
    have hother : other ≠ ptr := by
      rintro rfl
      exact hfree hmem
    have hid : runtimeId' ≠ runtimeId := by
      rintro rfl
      exact hother (Option.some.inj (hptr'.symm.trans hptr))
    exact ⟨runtimeId', found, (update_of_ne hid ..).trans hptr', (update_of_ne hother ..).trans hfound, hport⟩

omit hreplicas

variable (hseparate : deployment.Separate) (hformed : state.Formed deployment address)
  (hpeer : deployment.runtimes peer.val.address = some peer)

include hseparate hformed hpeer

/-- A peer without a link becomes a neighbour. -/
theorem openNeighbour (hdata : role.isDataPlane = true) (hnew : peer.val.address ∉ state.runtimes role)
    (habsent : worker.holder.reliables peer.val.runtimeId = none)
    (hholder : worker'.holder = worker.holder.opened role.port peer 0)
    (hlist : worker'.replicasRrlist = worker.rrlistAdd role peer.val.runtimeId) :
    worker'.Counted (state.emplace role peer.val.address peer) := by
  refine hcounted.of_opened hlinked (hlist ▸ hcounted.offers_add hseparate hformed hpeer hnew) hflows hpeer
    habsent hholder (fun hport ↦ ?_) (fun key hkey ↦ RpcState.controlRoles_emplace_of_ne hkey)
    fun _ hlookup ↦ (RpcState.lookup_emplace hlookup).imp_right fun hself ↦ hself.2.2
  cases role <;> simp_all [Role.port, Role.isDataPlane]

/-- A peer is recorded in a control-plane role. -/
theorem acquire (hcontrol : role.isDataPlane = false) (hnew : peer.val.address ∉ state.runtimes role)
    (hacquire : worker.holder.acquire peer = some worker'.holder)
    (hlist : worker'.replicasRrlist = worker.rrlistAdd role peer.val.runtimeId) :
    worker'.Counted (state.emplace role peer.val.address peer) := by
  have hoffers := hcounted.offers_add hseparate hformed hpeer hnew
  rw [← hlist] at hoffers
  have hself : (state.emplace role peer.val.address peer).controlRoles peer.val.address = _ :=
    RpcState.controlRoles_emplace hcontrol hnew
  rcases ReliablesHolder.acquire_cases hacquire with ⟨ptr, link, hptr, hlink, hholder⟩ | ⟨habsent, hholder⟩
  · have hconfig := hlinked.link_eq hseparate hpeer hptr hlink
    refine hcounted.of_recounted hlinked hoffers hptr hlink hholder ?_ (fun ptr key _ hkey ↦ ?_)
      (fun hrole hlookup ↦ ?_) fun hmem ↦ .inl (hflows ▸ hmem)
    · rw [hflows, hconfig, holdersOf, hself, holdersOf]
      push_cast
      ring
    · rw [hflows, holdersOf, RpcState.controlRoles_emplace_of_ne (hconfig ▸ hkey), holdersOf]
    · rcases RpcState.lookup_emplace hlookup with hlookup | ⟨-, -, rfl⟩
      · exact hcounted.held hrole hlookup
      · exact ⟨ptr, hptr⟩
  · have hnone : state.controlRoles peer.val.address = 0 := by
      by_contra hpositive
      obtain ⟨other, hmem, hrecorded⟩ := List.countP_pos_iff.1 (Nat.pos_of_ne_zero hpositive)
      have hother : other.isDataPlane = false := by
        fin_cases hmem <;> rfl
      obtain ⟨found, hlookup⟩ :=
        Option.isSome_iff_exists.1 (AList.lookup_isSome.2 (of_decide_eq_true hrecorded))
      have hknown := (hformed.known hlookup).1
      rw [hpeer, Option.some.injEq] at hknown
      obtain ⟨ptr, hptr⟩ := hcounted.held hother hlookup
      exact absurd (habsent.symm.trans (hknown ▸ hptr)) (by simp)
    exact hcounted.of_opened hlinked hoffers hflows hpeer habsent hholder (fun _ ↦ by rw [hself, hnone])
      (fun key hkey ↦ RpcState.controlRoles_emplace_of_ne hkey)
      fun _ hlookup ↦ (RpcState.lookup_emplace hlookup).imp_right fun hself ↦ hself.2.2

variable (hdisjoint : state.RolesDisjoint) (hmem : peer.val.address ∈ state.runtimes role)
  (hlist : worker'.replicasRrlist = worker.rrlistDelete role peer.val.runtimeId)

include hdisjoint hmem hlist

theorem closeNeighbour (hdata : role.isDataPlane = true)
    (hholder : worker'.holder = worker.holder.closeLink role.port peer) :
    worker'.Counted (state.erase role peer.val.address) := by
  have hoffers := hcounted.offers_delete hformed hpeer role
  rw [← hlist] at hoffers
  have hcontrol {other : Role} (hother : other.isDataPlane = false) : other ≠ role := by
    rintro rfl
    exact absurd hdata (by simp [hother])
  cases hptr : worker.holder.reliables peer.val.runtimeId with
  | none =>
    rw [ReliablesHolder.closeLink_of_absent hptr, hlinked.delMac_of_absent hseparate hptr hpeer] at hholder
    refine ⟨?_, fun hother hlookup ↦ ?_, fun hmem ↦ ?_, hoffers⟩ <;> rw [hholder]
    · intro runtimeId ptr link hfound hlink hport
      have hplaced := hlinked.entry_of_heap hfound hlink
      have hne := hplaced.ne_address hpeer fun hid ↦ by
        rw [hid, hfound] at hptr
        cases hptr
      rw [hcounted.exact _ _ _ hfound hlink hport, hflows, holdersOf, holdersOf,
        RpcState.controlRoles_erase_of_ne hne]
    · exact hcounted.held hother (RpcState.lookup_erase hlookup)
    · exact hcounted.flow (hflows ▸ hmem)
  | some ptr =>
    obtain ⟨link, hlink, hplaced⟩ := hlinked.entry hptr
    have hconfig := hlinked.link_eq hseparate hpeer hptr hlink
    have hport : link.port = role.port := (hplaced.role role hdata).2 (hconfig ▸ hmem)
    have hfree : some ptr ∉ worker.flows := hcounted.not_held_of_port hlink (by
      rw [hport]
      cases role <;> simp_all [Role.port, Role.isDataPlane])
    rw [ReliablesHolder.closeLink_of_present hptr] at hholder
    refine hcounted.of_closed hlinked hoffers hflows hptr hlink hfree hholder
      (fun key hkey ↦ RpcState.controlRoles_erase_of_ne (hconfig ▸ hkey)) fun {other key found} hother hlookup ↦ ?_
    have hold := RpcState.lookup_erase hlookup
    refine ⟨hold, fun hid ↦ hcontrol hother (hdisjoint _ role other hdata hmem ?_)⟩
    have hknown := (hformed.known hold).1
    obtain rfl := hseparate.id hknown hpeer hid
    rw [deployment.address_eq hknown]
    exact RpcState.mem_of_lookup hold

theorem release (hcontrol : role.isDataPlane = false) {freed : Bool}
    (hrelease : worker.holder.release peer = some (worker'.holder, freed)) :
    worker'.Counted (state.erase role peer.val.address) := by
  have hroles := RpcState.controlRoles_erase hcontrol hmem
  have hoffers := hcounted.offers_delete hformed hpeer role
  rw [← hlist] at hoffers
  obtain ⟨ptr, link, hptr, hlink, hcases⟩ := ReliablesHolder.release_cases hrelease
  have hconfig := hlinked.link_eq hseparate hpeer hptr hlink
  have hcount := hcounted.exact _ _ _ hptr hlink
    (hlinked.port_eq_control hdisjoint hptr hlink hcontrol (hconfig ▸ hmem))
  rw [hconfig, holdersOf] at hcount
  rcases hcases with ⟨-, hholder⟩ | ⟨hlast, hholder⟩
  · refine hcounted.of_recounted hlinked hoffers hptr hlink hholder ?_ (fun ptr key _ hkey ↦ ?_)
      (fun hrole hlookup ↦ hcounted.held hrole (RpcState.lookup_erase hlookup)) fun hmem ↦ .inl (hflows ▸ hmem)
    · rw [hflows, hconfig, holdersOf, holdersOf]
      omega
    · rw [hflows, holdersOf, RpcState.controlRoles_erase_of_ne (hconfig ▸ hkey), holdersOf]
  · have hgone : (state.erase role peer.val.address).controlRoles peer.val.address = 0 := by omega
    have hfree : some ptr ∉ worker.flows := by
      rw [← List.count_eq_zero]
      omega
    refine hcounted.of_closed hlinked hoffers hflows hptr hlink hfree hholder
      (fun key hkey ↦ RpcState.controlRoles_erase_of_ne (hconfig ▸ hkey)) fun hrole hlookup ↦ ?_
    have hold := RpcState.lookup_erase hlookup
    refine ⟨hold, fun hid ↦ ?_⟩
    have hknown := (hformed.known hold).1
    obtain rfl := hseparate.id hknown hpeer hid
    have hstill := RpcState.controlRoles_pos hrole (RpcState.mem_of_lookup hlookup)
    rw [← deployment.address_eq hknown] at hstill
    omega

omit hlinked hflows hseparate hformed hpeer hdisjoint hmem hlist

/-- Only the flows that hold a link matter. -/
theorem of_sameFlows (hflows : ∀ ptr, flows.count (some ptr) = worker.flows.count (some ptr)) :
    Worker.Counted state { worker with flows := flows } where
  exact := by
    rw [show holdersOf state flows = holdersOf state worker.flows from
      funext fun ptr ↦ funext fun key ↦ by rw [holdersOf, hflows, holdersOf]]
    exact hcounted.exact
  held := hcounted.held
  flow hmem := hcounted.flow (by rwa [← List.count_pos_iff, ← hflows, List.count_pos_iff])
  replicas := hcounted.replicas

variable (hlinked : worker.holder.Linked deployment state)

include hlinked

theorem drop {holder : ReliablesHolder} (hdrop : worker.holder.decRefCnt ptr = some holder)
    (hflows : ∀ other, worker.flows.count (some other) = flows.count (some other) + if ptr = other then 1 else 0) :
    Worker.Counted state { worker with holder := holder, flows := flows } := by
  obtain ⟨link, hlink, rfl⟩ := ReliablesHolder.addRefCnt_eq_some.1 hdrop
  have hheld : some ptr ∈ worker.flows := by
    rw [← List.count_pos_iff, hflows ptr, if_pos rfl]
    omega
  obtain ⟨runtimeId, -, hptr, -, -⟩ := hcounted.flow hheld
  refine hcounted.of_recounted hlinked hcounted.replicas hptr hlink rfl ?_ (fun other key hother _ ↦ ?_)
    hcounted.held fun {other} hmem ↦ .inl ?_
  · rw [holdersOf, holdersOf, hflows ptr, if_pos rfl]
    push_cast
    ring
  · rw [holdersOf, holdersOf, hflows other, if_neg (Ne.symm hother)]
    rfl
  · rw [← List.count_pos_iff, hflows other]
    exact Nat.add_pos_left (List.count_pos_iff.2 hmem) _

variable (hseparate : deployment.Separate) (hformed : state.Formed deployment address)
  (hdisjoint : state.RolesDisjoint)

include hseparate hformed hdisjoint

/-- A new flow takes a reference to the link of a replica. -/
theorem createFlow (hrun : worker.createFlow = some worker') : worker'.Counted state := by
  rw [Worker.createFlow] at hrun
  split at hrun
  · cases hrun
    exact hcounted.of_sameFlows fun ptr ↦ by simp
  · next runtimeId others hreplicas =>
    obtain ⟨ptr, hptr, hrun⟩ := bind_eq_some_iff.1 hrun
    obtain ⟨holder, hholder, hrun⟩ := bind_eq_some_iff.1 hrun
    cases hrun
    obtain ⟨link, hlink, rfl⟩ := ReliablesHolder.addRefCnt_eq_some.1 hholder
    have hperm : (others ++ [runtimeId]).Perm worker.replicasRrlist := by
      rw [hreplicas]
      exact List.perm_append_singleton runtimeId others
    obtain ⟨key, peer, hlookup, rfl⟩ :=
      hcounted.replicas.2 runtimeId (hperm.subset (List.mem_append_right _ List.mem_cons_self))
    have hknown := (hformed.known hlookup).1
    have hport : link.port = .control := by
      refine hlinked.port_eq_control hdisjoint hptr hlink (show Role.replica.isDataPlane = false from rfl) ?_
      rw [hlinked.link_eq hseparate hknown hptr hlink, deployment.address_eq hknown]
      exact RpcState.mem_of_lookup hlookup
    refine hcounted.of_recounted hlinked ⟨hperm.nodup_iff.2 hcounted.replicas.1, fun _ hmem ↦
      hcounted.replicas.2 _ (hperm.subset hmem)⟩ hptr hlink rfl ?_ (fun other key hother _ ↦ ?_) hcounted.held
      fun hmem ↦ ?_
    · rw [holdersOf, holdersOf, List.count_append, List.count_singleton_self]
      push_cast
      ring
    · rw [holdersOf, holdersOf, List.count_append, List.count_singleton, if_neg (by simpa using Ne.symm hother)]
      rfl
    · refine (List.mem_append.1 hmem).imp_right fun hnew ↦ ⟨?_, hport⟩
      exact Option.some.inj (List.mem_singleton.1 hnew)

theorem runFlow {event : FlowEvent} (hrun : worker.runFlow event = some worker') : worker'.Counted state := by
  cases event with
  | create => exact hcounted.createFlow hlinked hseparate hformed hdisjoint hrun
  | idle =>
    obtain ⟨found, hfound, hrun⟩ := bind_eq_some_iff.1 hrun
    cases found with
    | none =>
      cases hrun
      refine hcounted.of_sameFlows fun ptr ↦ ?_
      rw [count_eraseIdx hfound (some ptr)]
      simp
    | some =>
      obtain ⟨holder, hholder, hrun⟩ := bind_eq_some_iff.1 hrun
      cases hrun
      refine hcounted.drop hlinked hholder fun other ↦ ?_
      rw [count_eraseIdx hfound (some other)]
      simp
  | connectionDown =>
    obtain ⟨found, hfound, hrun⟩ := bind_eq_some_iff.1 hrun
    obtain ⟨ptr, hptr, hrun⟩ := bind_eq_some_iff.1 hrun
    obtain ⟨holder, hholder, hrun⟩ := bind_eq_some_iff.1 hrun
    cases hrun
    refine hcounted.drop hlinked hholder fun other ↦ ?_
    have hbound := (List.getElem?_eq_some_iff.1 hfound).1
    rw [count_eraseIdx hfound, (List.set_perm_cons_eraseIdx hbound none).count_eq, hptr]
    simp
  | migrateOut =>
    obtain ⟨found, hfound, hrun⟩ := bind_eq_some_iff.1 hrun
    cases found with
    | none =>
      cases hrun
      refine hcounted.of_sameFlows fun ptr ↦ ?_
      rw [count_eraseIdx hfound (some ptr)]
      simp
    | some => cases hrun

theorem runTask {command : Command} (heffect : state.Effect deployment command state')
    (hnoLink : worker.FindsNoLink command)
    (hkeeps : command.operation ≠ .deleteMigrationTarget ∧ command.operation ≠ .deleteMigrationSource)
    (hrun : worker.runTask command = some worker') : worker'.Counted state' := by
  cases heffect with
  | @added role _ peer hpeer hnew =>
    obtain rfl := deployment.address_eq hpeer
    obtain ⟨hholder, hflows, hreplicas, -⟩ := Worker.runTask_add hrun
    split at hholder
    · next hdata =>
      have habsent : worker.holder.reliables peer.val.runtimeId = none := by
        apply hnoLink
        cases role <;> simp_all [Role.isDataPlane, Role.addOperation]
      rw [ReliablesHolder.openLink_of_absent habsent] at hholder
      exact hcounted.openNeighbour hlinked hflows hseparate hformed hpeer hdata hnew habsent hholder hreplicas
    · next hcontrol =>
      rw [Bool.not_eq_true] at hcontrol
      exact hcounted.acquire hlinked hflows hseparate hformed hpeer hcontrol hnew hholder hreplicas
  | @deleted role _ peer hlookup =>
    have hpeer := (hformed.known hlookup).1
    obtain rfl := deployment.address_eq hpeer
    have hmem := RpcState.mem_of_lookup hlookup
    obtain ⟨hholder, hflows, hreplicas, -⟩ := Worker.runTask_delete hrun
    split at hholder
    · next hdata =>
      exact hcounted.closeNeighbour hlinked hflows hseparate hformed hpeer hdisjoint hmem hreplicas hdata hholder
    · next hcontrol =>
      rw [Bool.not_eq_true] at hcontrol
      obtain ⟨freed, hrelease⟩ := hholder
      exact hcounted.release hlinked hflows hseparate hformed hpeer hdisjoint hmem hreplicas hcontrol hrelease
  | kept _ hkind =>
    rcases hkind with rfl | rfl
    · exact absurd rfl hkeeps.1
    · exact absurd rfl hkeeps.2

end Worker.Counted

/-! ## Runs -/

namespace Site

/-- The step keeps the links, and deletes no recorded migration target or source. -/
def KeepsCounts (site : Site) (input : SiteInput) : Prop :=
  site.KeepsLinks input ∧
    match input with
    | .control input => ∀ entry ∈ site.command input,
        entry.2.operation ≠ .deleteMigrationTarget ∧ entry.2.operation ≠ .deleteMigrationSource
    | .flow _ _ => True

instance (site : Site) (input : SiteInput) : Decidable (site.KeepsCounts input) :=
  match input with
  | .control _ => inferInstanceAs (Decidable (_ ∧ ∀ entry ∈ site.command _, _))
  | .flow _ _ => inferInstanceAs (Decidable (_ ∧ True))

structure Counted (deployment : Deployment) (site : Site) : Prop where
  linked : site.Linked deployment
  worker : ∀ {address worker node}, site.workers address = some worker → site.plane.nodes address = some node →
    worker.Counted node.rpc

variable {deployment : Deployment} {site site' : Site}

theorem Counted.step (hseparate : deployment.Separate) (hcounted : site.Counted deployment) {input : SiteInput}
    (hkeeps : site.KeepsCounts input) (hstep : site.step input = some site') : site'.Counted deployment := by
  have hroles := hcounted.linked.roles
  refine ⟨hcounted.linked.step hseparate hkeeps.1 hstep, fun {address worker' found} hworker' hfound ↦ ?_⟩
  obtain ⟨worker, node, node', hworker, hnode, hnode', hvisit⟩ := hcounted.linked.staffed.visit hstep hworker'
  obtain ⟨_, hsame, hholder⟩ := hcounted.linked.worker hworker
  cases hnode.symm.trans hsame
  cases hnode'.symm.trans hfound
  have hhere := hcounted.worker hworker hnode
  cases hvisit with
  | aside hrpc hworker =>
    rw [hrpc, hworker]
    exact hhere
  | task hinput hcommand heffect hrun =>
    subst hinput
    exact hhere.runTask hholder hseparate (hroles.formed.node hnode) (hroles.disjoint hnode) heffect
      (hkeeps.1.2 _ hcommand) (hkeeps.2 _ hcommand) hrun
  | flow hinput hvisited hrpc hrun =>
    subst hinput
    rw [hrpc]
    exact hhere.runFlow hholder hseparate (hroles.formed.node hnode) (hroles.disjoint hnode) hrun

theorem Counted.boot (deployment : Deployment) : deployment.bootSite.Counted deployment where
  linked := Linked.boot deployment
  worker hworker hnode := by
    obtain ⟨peer, hpeer, rfl⟩ := map_eq_some_iff.1 hworker
    obtain ⟨_, -, rfl⟩ := map_eq_some_iff.1 hnode
    refine ⟨fun _ _ _ h ↦ absurd h (by simp [Worker.boot]), fun _ h ↦ absurd h (by simp [Deployment.bootRpc]),
      fun h ↦ absurd h (by simp [Worker.boot]), List.nodup_nil, fun _ h ↦ absurd h (by simp [Worker.boot])⟩

/-- In every run that meets the condition, the count of a link on the control port is the number of
control-plane roles of its peer and of flows that replicate to it, every role finds its link, so that no delete
meets a null pointer, and no flow points to an erased link. -/
theorem references_exact (deployment : Deployment) (hseparate : deployment.Separate) (site : Site)
    (hreach : deployment.siteSystem.Reachable KeepsCounts site) (address : Address) (worker : Worker) (node : Node)
    (hworker : site.workers address = some worker) (hnode : site.plane.nodes address = some node) :
    (∀ runtimeId ptr link, worker.holder.reliables runtimeId = some ptr → worker.holder.heap ptr = some link →
      link.port = .control → link.refCnt =
        node.rpc.controlRoles link.remoteRtConfig.val.address + worker.flows.count (some ptr)) ∧
      (∀ role key peer, role.isDataPlane = false → (node.rpc.runtimes role).lookup key = some peer →
        ∃ ptr, worker.holder.reliables peer.val.runtimeId = some ptr) ∧
      ∀ ptr, some ptr ∈ worker.flows → ∃ runtimeId, worker.holder.reliables runtimeId = some ptr := by
  have hcounted : site.Counted deployment :=
    hreach.invariant (fun _ h ↦ h ▸ Counted.boot deployment) fun _ _ _ hs hkeeps hstep ↦
      hs.step hseparate hkeeps hstep
  have hhere := hcounted.worker hworker hnode
  refine ⟨hhere.exact, fun role key peer hcontrol hlookup ↦ hhere.held hcontrol hlookup, fun ptr hmem ↦ ?_⟩
  obtain ⟨runtimeId, -, hptr, -, -⟩ := hhere.flow hmem
  exact ⟨runtimeId, hptr⟩

/-- The second runtime becomes a replica of the first, where two flows are created. -/
def replicatedFlows : List SiteInput :=
  (negotiated .addReplicas 0).map .control ++
    [.flow firstPeer.val.address .create, .flow firstPeer.val.address .create]

theorem references_exact_replicated_flows :
    ∃ site worker node link,
      twoRuntimes.siteSystem.run twoRuntimes.bootSite replicatedFlows = some site ∧
      site.workers firstPeer.val.address = some worker ∧ site.plane.nodes firstPeer.val.address = some node ∧
      worker.holder.reliables secondPeer.val.runtimeId = some 0 ∧ worker.holder.heap 0 = some link ∧
      link.refCnt = node.rpc.controlRoles secondPeer.val.address + worker.flows.count (some 0) ∧
      worker.flows = [some 0, some 0] := by
  obtain ⟨site, hsite, worker, hworker, ⟨node, hnode, -⟩, link, hlink, hptr, hport, hconfig, hflows⟩ :
      ∃ site ∈ twoRuntimes.siteSystem.runChecked (fun site input ↦ decide (site.KeepsCounts input))
        twoRuntimes.bootSite replicatedFlows,
      ∃ worker ∈ site.workers firstPeer.val.address,
      (∃ node ∈ site.plane.nodes firstPeer.val.address, True) ∧
      ∃ link ∈ worker.holder.heap 0, worker.holder.reliables secondPeer.val.runtimeId = some 0 ∧
        link.port = .control ∧ link.remoteRtConfig = secondPeer ∧ worker.flows = [some 0, some 0] := by
    decide +kernel
  have hreach := TransitionSystem.Reachable.replayDecided rfl hsite
  have hcount := (references_exact twoRuntimes twoRuntimes_separate site hreach _ worker node hworker hnode).1
    _ _ link hptr hlink hport
  rw [hconfig] at hcount
  exact ⟨site, worker, node, link, TransitionSystem.run_of_runChecked hsite, hworker, hnode, hptr, hlink, hcount,
    hflows⟩

/-- The second runtime becomes a migration target of the first and is deleted. -/
def deletedTarget : List SiteInput :=
  (negotiated .setMigrationTarget 0).map .control ++
    [.control (.request firstPeer.val.address (.deleteMigrationTarget secondPeer.val.address))]

/-- The link to the migration target is gone, the role is still recorded, and a second delete follows a null
pointer. -/
theorem role_without_link_after_delete :
    ∃ site worker node, twoRuntimes.siteSystem.run twoRuntimes.bootSite deletedTarget = some site ∧
      site.workers firstPeer.val.address = some worker ∧ site.plane.nodes firstPeer.val.address = some node ∧
      node.rpc.controlRoles secondPeer.val.address = 1 ∧
      worker.holder.reliables secondPeer.val.runtimeId = none ∧
      worker.runTask ⟨.deleteMigrationTarget, secondPeer⟩ = none := by
  exact ⟨_, _, _, rfl, rfl, rfl, by decide +kernel, by decide +kernel, rfl⟩

end Site

end NfvActor.Control
