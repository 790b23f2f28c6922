import Mathlib.Tactic
import NfvActor.Reliable.SendList

/-!
# Invariants of the shared send list

The list items stay partitioned between the free ring and the four lists, and the credit covers the pending
packets. The second part is only claimed of runs in which every copy succeeds, so the invariant carries a
proposition that switches it on.
-/

namespace NfvActor.Reliable

open Foundation
open Function
open Option (bind_eq_some_iff)

/-- What an item contributes to a peer's credit. -/
def share (items : ℕ → ListItem) (rtid : ℤ) (index : ℕ) : ℤ :=
  if (items index).reliableRtid = rtid then (items index).pktNum else 0

/-- The sum of `pkt_num` over the items with the peer's id. -/
def credit (items : ℕ → ListItem) (list : List ℕ) (rtid : ℤ) : ℤ :=
  (list.map (share items rtid)).sum

section Credit

variable {items items' : ℕ → ListItem} {list : List ℕ} {rtid : ℤ}

@[simp]
theorem credit_cons (items : ℕ → ListItem) (index : ℕ) (list : List ℕ) (rtid : ℤ) :
    credit items (index :: list) rtid = share items rtid index + credit items list rtid := by
  simp [credit]

@[simp]
theorem credit_append (items : ℕ → ListItem) (left right : List ℕ) (rtid : ℤ) :
    credit items (left ++ right) rtid = credit items left rtid + credit items right rtid := by
  simp [credit]

theorem credit_congr (hsame : ∀ index ∈ list, items' index = items index) :
    credit items' list rtid = credit items list rtid := by
  unfold credit share
  congr 1
  apply List.map_congr_left
  intro index hindex
  rw [hsame index hindex]

theorem credit_update_of_notMem {index : ℕ} {item : ListItem} (hindex : index ∉ list) :
    credit (update items index item) list rtid = credit items list rtid := by
  apply credit_congr
  intro other hother
  have hne : other ≠ index := fun heq ↦ hindex (heq ▸ hother)
  rw [update_of_ne hne]

theorem credit_update (rtid : ℤ) {index : ℕ} (item : ListItem) (hnodup : list.Nodup) (hindex : index ∈ list)
    (hrtid : item.reliableRtid = (items index).reliableRtid) :
    credit (update items index item) list rtid = credit items list rtid +
        if (items index).reliableRtid = rtid then item.pktNum - (items index).pktNum else 0 := by
  induction list with
  | nil => cases hindex
  | cons other _ ih =>
    rw [List.nodup_cons] at hnodup
    rw [credit_cons, credit_cons]
    rcases List.mem_cons.1 hindex with rfl | hrest
    · rw [credit_update_of_notMem hnodup.1]
      simp only [share, update_self, hrtid]
      split <;> ring
    · have hne : other ≠ index := fun heq ↦ hnodup.1 (heq ▸ hrest)
      rw [ih hnodup.2 hrest]
      simp only [share, update_of_ne hne]
      ring

theorem credit_nonneg (hnonneg : ∀ index ∈ list, 0 ≤ (items index).pktNum) : 0 ≤ credit items list rtid := by
  apply List.sum_nonneg
  intro value hvalue
  obtain ⟨index, hindex, rfl⟩ := List.mem_map.1 hvalue
  unfold share
  split
  · exact hnonneg index hindex
  · exact le_rfl

end Credit

namespace Outbound

variable {N : ℕ}

/-! ## The invariant -/

/-- The items are partitioned as `lists` says, queues are well-formed, and a drain looks at the head of the send
list unless its batch is full. With `strict`, the pending packets of every peer that is up are covered by its
credit and what it is still `owed`. -/
structure Sound (strict : Prop) (owed : ℤ → ℤ) (outbound : Outbound N)
    (lists : ItemList → List ℕ) : Prop where
  placed : Partition outbound.allocator outbound.links lists
  capacity : outbound.allocator.maxSize = itemPoolSize
  queues : ∀ rtid p2p, outbound.reliables rtid = some p2p →
    p2p.sendQueue.WellFormed ∧ p2p.destRtid = rtid
  credit_nonneg : ∀ index ∈ lists .reliableSend, 0 ≤ (outbound.items index).pktNum
  funded : strict → ∀ rtid p2p, outbound.reliables rtid = some p2p → p2p.isConnectionUp = true →
    (p2p.sendQueue.pendingSendNum : ℤ) ≤
      credit outbound.items (lists .reliableSend) rtid + owed rtid
  draining : ∀ drain, outbound.drain = some drain →
    kMaxBurst ≤ drain.batch.length ∨ drain.firstItem = (lists .reliableSend).head?

/-- No drain is going on, and the invariant holds of some lists. -/
structure Resting (strict : Prop) (owed : ℤ → ℤ) (outbound : Outbound N) : Prop where
  idle : outbound.drain = none
  sound : ∃ lists, Sound strict owed outbound lists

variable {strict : Prop} {owed : ℤ → ℤ} {outbound outbound' : Outbound N}
  {lists : ItemList → List ℕ}

theorem sound_init (items : ℕ → ListItem) : Sound strict (fun _ ↦ 0) (init items : Outbound N) fun _ ↦ [] where
  placed := Partition.initial itemPoolSize (by decide)
  capacity := rfl
  queues := by simp [init]
  credit_nonneg := by simp
  funded := by simp [init]
  draining := by simp [init]

variable {set : ListItem → ListItem}

theorem addToTail_eq_some {list : ItemList} (hadd : outbound.addToTail list set = some outbound') :
    ∃ index free, outbound.allocator.pop = some (index, free) ∧ outbound' = { outbound with
      allocator := free
      links := outbound.links.addTail (.head list) (.item index)
      items := update outbound.items index (set (outbound.items index)) } := by
  obtain ⟨⟨index, taken⟩, hallocate, hsome⟩ := bind_eq_some_iff.1 hadd
  obtain ⟨⟨index', free⟩, hpop, htaken⟩ := bind_eq_some_iff.1 hallocate
  cases htaken
  cases hsome
  exact ⟨index, free, hpop, rfl⟩

theorem addToHead_eq_some {list : ItemList} (hadd : outbound.addToHead list set = some outbound') :
    ∃ index free, outbound.allocator.pop = some (index, free) ∧ outbound' = { outbound with
      allocator := free
      links := outbound.links.addHead (.head list) (.item index)
      items := update outbound.items index (set (outbound.items index)) } := by
  obtain ⟨⟨index, taken⟩, hallocate, hsome⟩ := bind_eq_some_iff.1 hadd
  obtain ⟨⟨index', free⟩, hpop, htaken⟩ := bind_eq_some_iff.1 hallocate
  cases htaken
  cases hsome
  exact ⟨index, free, hpop, rfl⟩

namespace Sound

variable {rtid : ℤ} {p2p : PeerToPeer N} {list : ItemList} {index num : ℕ} {surroundings : Surroundings}
  {currentNs : UInt64}

/-- A peer changes; whatever its credit does not cover is owed. -/
theorem setPeer (hsound : Sound strict owed outbound lists) (amount : ℤ) (hwf : p2p.sendQueue.WellFormed)
    (hrtid : p2p.destRtid = rtid)
    (hfunded : strict → p2p.isConnectionUp = true → (p2p.sendQueue.pendingSendNum : ℤ) ≤
      credit outbound.items (lists .reliableSend) rtid + amount) :
    Sound strict (update owed rtid amount) (outbound.setPeer rtid p2p) lists := by
  refine { hsound with queues := ?_, funded := ?_ }
  · intro other p2p' hother
    by_cases heq : other = rtid
    · subst heq
      simp only [Outbound.setPeer, update_self, Option.some.injEq] at hother
      subst hother
      exact ⟨hwf, hrtid⟩
    · simp only [Outbound.setPeer, update_of_ne heq] at hother
      exact hsound.queues other p2p' hother
  · intro hstrict other p2p' hother hup
    by_cases heq : other = rtid
    · subst heq
      simp only [Outbound.setPeer, update_self, Option.some.injEq] at hother
      subst hother
      rw [update_self]
      exact hfunded hstrict hup
    · simp only [Outbound.setPeer, update_of_ne heq] at hother
      rw [update_of_ne heq]
      exact hsound.funded hstrict other p2p' hother hup

/-- A change that adds nothing to what is pending leaves nothing owed. -/
theorem setPeer_of_pending_le (hsound : Sound strict (fun _ ↦ 0) outbound lists) {p2p' : PeerToPeer N}
    (hfind : outbound.reliables rtid = some p2p) (hwf : p2p'.sendQueue.WellFormed)
    (hrtid : p2p'.destRtid = p2p.destRtid) (hup : p2p'.isConnectionUp = p2p.isConnectionUp)
    (hpending : p2p'.sendQueue.pendingSendNum ≤ p2p.sendQueue.pendingSendNum) :
    Sound strict (fun _ ↦ 0) (outbound.setPeer rtid p2p') lists := by
  have hset := hsound.setPeer 0 hwf (hrtid.trans (hsound.queues rtid p2p hfind).2) <| by
    intro hstrict hup'
    have hfunded := hsound.funded hstrict rtid p2p hfind (hup ▸ hup')
    omega
  rwa [update_eq_self] at hset

theorem erasePeer (hsound : Sound strict owed outbound lists) (rtid : ℤ) :
    Sound strict owed (outbound.erasePeer rtid) lists := by
  have hfind : ∀ other p2p, (outbound.erasePeer rtid).reliables other = some p2p →
      outbound.reliables other = some p2p := by
    intro other p2p hother
    by_cases heq : other = rtid
    · subst heq
      simp [Outbound.erasePeer] at hother
    · simpa [Outbound.erasePeer, update_of_ne heq] using hother
  refine { hsound with queues := ?_, funded := ?_ }
  · intro other p2p hother
    exact hsound.queues other p2p (hfind other p2p hother)
  · intro hstrict other p2p hother hup
    exact hsound.funded hstrict other p2p (hfind other p2p hother) hup

theorem allocated (set : ListItem → ListItem) {free : RingBuffer ℕ} {links : Links (PoolNode ItemList)}
    {xs : List ℕ} (hsound : Sound strict owed outbound lists) (hidle : outbound.drain = none)
    (hpop : outbound.allocator.pop = some (index, free)) (hplaced : Partition free links (update lists list xs))
    (hsend : list = .reliableSend → 0 ≤ (set (outbound.items index)).pktNum ∧ xs.Perm (index :: lists list)) :
    Sound strict
      (fun rtid ↦ owed rtid - if list = .reliableSend ∧ (set (outbound.items index)).reliableRtid = rtid
        then (set (outbound.items index)).pktNum else 0)
      { outbound with
        allocator := free
        links := links
        items := update outbound.items index (set (outbound.items index)) }
      (update lists list xs) := by
  obtain ⟨hcontents, hmax⟩ := RingBuffer.contents_pop hpop
  have hcapacity : free.maxSize = itemPoolSize := hmax.trans hsound.capacity
  have hfree : index ∈ outbound.allocator.contents := hcontents ▸ List.mem_cons_self
  have hfresh : index ∉ lists .reliableSend := hsound.placed.free_unlinked index hfree _
  have hold : ∀ other ∈ lists .reliableSend,
      update outbound.items index (set (outbound.items index)) other = outbound.items other := by
    intro other hother
    have hne : other ≠ index := fun heq ↦ hfresh (heq ▸ hother)
    rw [update_of_ne hne]
  by_cases hlist : list = .reliableSend
  · subst hlist
    obtain ⟨hnonneg, hperm⟩ := hsend rfl
    have hcredit : ∀ rtid, credit (update outbound.items index (set (outbound.items index)))
        xs rtid = credit outbound.items (lists .reliableSend) rtid +
          if (set (outbound.items index)).reliableRtid = rtid then (set (outbound.items index)).pktNum
          else 0 := by
      intro rtid
      calc
        credit (update outbound.items index (set (outbound.items index))) xs rtid =
            credit (update outbound.items index (set (outbound.items index)))
              (index :: lists .reliableSend) rtid := (hperm.map _).sum_eq
        _ = _ := by
          rw [credit_cons, credit_congr hold, share, update_self, add_comm]
    refine ⟨hplaced, hcapacity, hsound.queues, ?_, ?_, by simp [hidle]⟩
    · intro other hother
      rw [update_self] at hother
      rcases List.mem_cons.1 (hperm.mem_iff.1 hother) with rfl | hmem
      · simpa using hnonneg
      · dsimp only
        rw [hold other hmem]
        exact hsound.credit_nonneg other hmem
    · intro hstrict rtid p2p hfind hup
      have hfunded := hsound.funded hstrict rtid p2p hfind hup
      simp only [update_self, hcredit, true_and]
      omega
  · have hsame : update lists list xs .reliableSend = lists .reliableSend := update_of_ne (Ne.symm hlist) _ _
    refine ⟨hplaced, hcapacity, hsound.queues, ?_, ?_, by simp [hidle]⟩
    · intro other hother
      rw [hsame] at hother
      dsimp only
      rw [hold other hother]
      exact hsound.credit_nonneg other hother
    · intro hstrict rtid p2p hfind hup
      have hfunded := hsound.funded hstrict rtid p2p hfind hup
      rw [hsame, credit_congr hold]
      simpa [hlist] using hfunded

/-- What is left to owe once a peer has been granted some credit. -/
def granted (owed : ℤ → ℤ) (rtid : ℤ) (num : ℕ) : ℤ → ℤ :=
  fun other ↦ owed other - if rtid = other then (num : ℤ) else 0

theorem granted_update (rtid : ℤ) (num : ℕ) :
    granted (update (fun _ ↦ 0) rtid (num : ℤ)) rtid num = fun _ ↦ 0 := by
  funext other
  by_cases heq : rtid = other
  · subst heq
    simp [granted]
  · simp [granted, heq, update_of_ne (Ne.symm heq)]

section

variable (hsound : Sound strict owed outbound lists) (hidle : outbound.drain = none)

include hsound hidle

/-- An item for one of the round-robin lists. -/
theorem addToTail {set : ListItem → ListItem} (hlist : list ≠ .reliableSend)
    (hadd : outbound.addToTail list set = some outbound') : Resting strict owed outbound' := by
  obtain ⟨index, free, hpop, rfl⟩ := addToTail_eq_some hadd
  refine ⟨hidle, update lists list (lists list ++ [index]), ?_⟩
  have hnew := hsound.allocated set hidle hpop (hsound.placed.addTail list hpop) (fun h ↦ absurd h hlist)
  simpa [hlist] using hnew

theorem creditTail (hadd : outbound.addToTail .reliableSend (creditItem p2p num) = some outbound') :
    Resting strict (granted owed p2p.destRtid num) outbound' := by
  obtain ⟨index, free, hpop, rfl⟩ := addToTail_eq_some hadd
  refine ⟨hidle, update lists .reliableSend (lists .reliableSend ++ [index]), ?_⟩
  have hnew := hsound.allocated (creditItem p2p num) hidle hpop (hsound.placed.addTail .reliableSend hpop)
    (fun _ ↦ ⟨by simp [creditItem], List.perm_append_singleton _ _⟩)
  unfold granted
  simpa [creditItem] using hnew

theorem creditHead (hadd : outbound.addToHead .reliableSend (creditItem p2p num) = some outbound') :
    Resting strict (granted owed p2p.destRtid num) outbound' := by
  obtain ⟨index, free, hpop, rfl⟩ := addToHead_eq_some hadd
  refine ⟨hidle, update lists .reliableSend (index :: lists .reliableSend), ?_⟩
  have hnew := hsound.allocated (creditItem p2p num) hidle hpop (hsound.placed.addHead .reliableSend hpop)
    (fun _ ↦ ⟨by simp [creditItem], List.Perm.refl _⟩)
  unfold granted
  simpa [creditItem] using hnew

end

/-- Changing the credit of an item changes what its peer is owed by the difference. -/
theorem setPktNum (pktNum : ℤ) (hsound : Sound strict owed outbound lists)
    (hindex : index ∈ lists .reliableSend) (hnonneg : 0 ≤ pktNum) :
    Sound strict (fun rtid ↦ owed rtid - if (outbound.items index).reliableRtid = rtid
        then pktNum - (outbound.items index).pktNum else 0)
      { outbound with
        items := update outbound.items index { outbound.items index with pktNum } }
      lists := by
  refine { hsound with credit_nonneg := ?_, funded := ?_ }
  · intro other hother
    by_cases heq : other = index
    · subst heq
      simpa only [update_self] using hnonneg
    · simpa only [update_of_ne heq] using hsound.credit_nonneg other hother
  · intro hstrict rtid p2p hfind hup
    have hfunded := hsound.funded hstrict rtid p2p hfind hup
    have hcredit := credit_update rtid { outbound.items index with pktNum }
      (hsound.placed.nodup_list .reliableSend) hindex rfl
    dsimp only at hcredit ⊢
    rw [hcredit]
    omega

section

variable (hsound : Sound strict owed outbound lists) (hidle : outbound.drain = none)

include hsound hidle

theorem addCredit (hindex : index ∈ lists .reliableSend) (hrtid : (outbound.items index).reliableRtid = rtid)
    (hadd : outbound.addCredit index num = some outbound') :
    Resting strict (granted owed rtid num) outbound' := by
  unfold Outbound.addCredit at hadd
  dsimp only at hadd
  split at hadd
  · cases hadd
    subst hrtid
    have hnonneg := hsound.credit_nonneg index hindex
    have hset := hsound.setPktNum _ hindex (add_nonneg hnonneg (Int.natCast_nonneg num))
    simp only [add_sub_cancel_left] at hset
    exact ⟨hidle, lists, hset⟩
  · cases hadd

theorem addToReliableSendList (hadd : outbound.addToReliableSendList p2p num = some outbound') :
    Resting strict (granted owed p2p.destRtid num) outbound' := by
  unfold Outbound.addToReliableSendList at hadd
  rw [Outbound.peekTail, hsound.placed.peekLast .reliableSend, Option.bind_eq_bind, Option.bind_some] at hadd
  cases hlast : (lists .reliableSend).getLast? with
  | none =>
    rw [hlast] at hadd
    exact hsound.creditTail hidle hadd
  | some =>
    rw [hlast] at hadd
    dsimp only at hadd
    split at hadd
    next => exact hsound.creditTail hidle hadd
    next hrtid =>
      exact hsound.addCredit hidle (List.mem_of_getLast? hlast) (not_not.1 hrtid) hadd

theorem prependToReliableSendList (hadd : outbound.prependToReliableSendList p2p num = some outbound') :
    Resting strict (granted owed p2p.destRtid num) outbound' := by
  unfold Outbound.prependToReliableSendList at hadd
  rw [Outbound.peekHead, hsound.placed.peekFirst .reliableSend, Option.bind_eq_bind, Option.bind_some] at hadd
  cases hfirst : (lists .reliableSend).head? with
  | none =>
    rw [hfirst] at hadd
    exact hsound.creditHead hidle hadd
  | some =>
    rw [hfirst] at hadd
    dsimp only at hadd
    split at hadd
    next => exact hsound.creditHead hidle hadd
    next hrtid =>
      exact hsound.addCredit hidle (List.mem_of_head? hfirst) (not_not.1 hrtid) hadd

/-- An item taken off a round-robin list goes back to the pool. -/
theorem removeFirst {matching : ListItem → Bool} (hlist : list ≠ .reliableSend)
    (hremove : outbound.removeFirst list matching = some outbound') : Resting strict owed outbound' := by
  unfold Outbound.removeFirst at hremove
  rw [hsound.placed.search_eq_find, Option.bind_eq_bind, Option.bind_some] at hremove
  cases hfind : (lists list).find? (fun index ↦ matching (outbound.items index)) with
  | none =>
    rw [hfind] at hremove
    cases hremove
    exact ⟨hidle, lists, hsound⟩
  | some =>
    rw [hfind] at hremove
    cases hremove
    obtain ⟨before, after, hsplit⟩ := List.append_of_mem (List.mem_of_find?_eq_some hfind)
    have hsame : update lists list (before ++ after) .reliableSend = lists .reliableSend :=
      update_of_ne (Ne.symm hlist) _ _
    refine ⟨hidle, update lists list (before ++ after), (hsound.placed.release hsplit).2,
      (RingBuffer.maxSize_push _ _).trans hsound.capacity, hsound.queues, ?_, ?_,
      by simp [deallocate, hidle]⟩
    · rw [hsame]
      exact hsound.credit_nonneg
    · rw [hsame]
      exact hsound.funded

theorem rotate (hlist : list ≠ .reliableSend) : ∃ lists', Sound strict owed (outbound.rotate list) lists' := by
  have hsame : update lists list ((lists list).rotate 1) .reliableSend = lists .reliableSend :=
    update_of_ne (Ne.symm hlist) _ _
  refine ⟨_, (hsound.placed.rotate list).2, hsound.capacity, hsound.queues, ?_, ?_,
    by simp [Outbound.rotate, hidle]⟩
  · rw [hsame]
    exact hsound.credit_nonneg
  · rw [hsame]
    exact hsound.funded

end

section

variable (hsound : Sound strict (fun _ ↦ 0) outbound lists) (hidle : outbound.drain = none) (hN : ValidSize N)

include hsound hidle hN

/-- An accepted message leaves its packets pending, and credit for them. -/
theorem reliableSend {send : PeerToPeer N → Option (ℕ × PeerToPeer N)}
    (hspec : ∀ p2p count p2p', p2p.sendQueue.WellFormed → send p2p = some (count, p2p') →
      PeerToPeer.Pushed p2p count p2p')
    (hsend : outbound.reliableSend rtid send = some outbound') : Resting strict (fun _ ↦ 0) outbound' := by
  obtain ⟨p2p, hfind, hrest⟩ := bind_eq_some_iff.1 hsend
  obtain ⟨⟨count, p2p'⟩, hcall, hrest⟩ := bind_eq_some_iff.1 hrest
  obtain ⟨hwf, hrtid⟩ := hsound.queues rtid p2p hfind
  obtain ⟨hwf', hpending, hup, hrtid'⟩ := (hspec p2p count p2p' hwf hcall).counters hN hwf
  dsimp only at hrest
  split at hrest
  next hzero =>
    cases hrest
    exact ⟨hidle, lists, hsound.setPeer_of_pending_le hfind hwf' hrtid' hup (by omega)⟩
  next =>
    have hset := hsound.setPeer (count : ℤ) hwf' (hrtid'.trans hrtid) <| by
      intro hstrict hup'
      have hfunded := hsound.funded hstrict rtid p2p hfind (hup ▸ hup')
      omega
    have hgrant := hset.addToReliableSendList hidle hrest
    rwa [hrtid'.trans hrtid, granted_update] at hgrant

/-- A check that rewinds the window leaves credit for the packets. -/
theorem check (hcheck : outbound.check rtid currentNs = some outbound') : Resting strict (fun _ ↦ 0) outbound' := by
  obtain ⟨p2p, hfind, hrest⟩ := bind_eq_some_iff.1 hcheck
  obtain ⟨hwf, hrtid⟩ := hsound.queues rtid p2p hfind
  obtain ⟨hwf', hrtid', hnone, hsome⟩ := PeerToPeer.check_spec hN hwf currentNs
  dsimp only at hrest
  cases hcredit : (p2p.check currentNs).1 with
  | none =>
    rw [hcredit] at hrest
    cases hrest
    obtain ⟨hup, hpending⟩ := hnone hcredit
    exact ⟨hidle, lists, hsound.setPeer_of_pending_le hfind hwf' hrtid' hup hpending.le⟩
  | some num =>
    rw [hcredit] at hrest
    have hset := hsound.setPeer (num : ℤ) hwf' (hrtid'.trans hrtid) <| by
      intro hstrict hup
      obtain ⟨hup', hpending⟩ := hsome num hcredit hup
      have hfunded := hsound.funded hstrict rtid p2p hfind hup'
      omega
    have hgrant := hset.prependToReliableSendList hidle hrest
    rwa [hrtid, granted_update] at hgrant

theorem recv {fuel : ℕ} {pkt : Segment Packet} (hrecv : outbound.recv rtid fuel currentNs pkt = some outbound') :
    Resting strict (fun _ ↦ 0) outbound' := by
  obtain ⟨p2p, hfind, hrest⟩ := bind_eq_some_iff.1 hrecv
  obtain ⟨⟨outcome, p2p'⟩, hcall, hsome⟩ := bind_eq_some_iff.1 hrest
  obtain ⟨hwf, -⟩ := hsound.queues rtid p2p hfind
  obtain ⟨hwf', hrtid, hpending⟩ := PeerToPeer.recv_counters hN hwf hcall
  have hup := PeerToPeer.recv_isConnectionUp hcall
  cases hsome
  refine ⟨hidle, lists, ?_⟩
  split <;> exact hsound.setPeer_of_pending_le hfind hwf' hrtid hup hpending

omit hN in
theorem getAckPkt {allocOk : Bool} (hack : outbound.getAckPkt rtid allocOk = some outbound') :
    Resting strict (fun _ ↦ 0) outbound' := by
  obtain ⟨p2p, hfind, hrest⟩ := bind_eq_some_iff.1 hack
  obtain ⟨⟨ack, p2p'⟩, hcall, hsome⟩ := bind_eq_some_iff.1 hrest
  obtain ⟨hwf, -⟩ := hsound.queues rtid p2p hfind
  cases hsome
  refine ⟨hidle, lists, ?_⟩
  unfold PeerToPeer.getAckPkt at hcall
  split at hcall
  · cases hcall
    exact hsound.setPeer_of_pending_le hfind hwf rfl rfl le_rfl
  · split at hcall <;> cases hcall
    exact hsound.setPeer_of_pending_le hfind hwf rfl rfl le_rfl

omit hidle in
/-- A newly constructed peer has nothing pending. -/
theorem build (rtid : ℤ) (gate : UInt16) (construction : Construction) (refCnt : ℤ) :
    Sound strict (fun _ ↦ 0) (outbound.setPeer rtid { construction.build rtid gate with refCnt }) lists := by
  have hcredit : 0 ≤ credit outbound.items (lists .reliableSend) rtid :=
    Reliable.credit_nonneg hsound.credit_nonneg
  have hset : Sound strict (update (fun _ ↦ 0) rtid 0)
      (outbound.setPeer rtid { construction.build rtid gate with refCnt }) lists :=
    hsound.setPeer 0 (SendQueue.wellFormed_init hN _ _ _) rfl fun _ _ ↦ by
      simpa [Construction.build, PeerToPeer.init, SendQueue.init] using hcredit
  rwa [update_eq_self] at hset

omit hsound hN in
theorem drain_shareReference (rtid : ℤ) (construction : Construction) :
    (outbound.shareReference rtid construction).2.drain = none := by
  unfold Outbound.shareReference
  split <;> exact hidle

omit hidle in
theorem shareReference (rtid : ℤ) (construction : Construction) :
    Sound strict (fun _ ↦ 0) (outbound.shareReference rtid construction).2 lists := by
  unfold Outbound.shareReference
  split
  next p2p hfind =>
    exact hsound.setPeer_of_pending_le hfind (hsound.queues rtid p2p hfind).1 rfl rfl le_rfl
  next => exact hsound.build hN rtid 2 construction _

theorem ping {msgId : UInt32} {cstruct : List UInt8}
    (hping : outbound.ping rtid msgId cstruct = some outbound') : Resting strict (fun _ ↦ 0) outbound' := by
  refine hsound.reliableSend hidle hN ?_ hping
  intro p2p count p2p' hwf hcall
  split at hcall
  next sent hsent =>
    cases hcall
    exact PeerToPeer.pushed_reliableSendCstruct hwf hsent
  next => cases hcall

theorem shareAndPing (hshare : outbound.shareAndPing rtid surroundings = some outbound') :
    Resting strict (fun _ ↦ 0) outbound' := by
  have hshared := hsound.shareReference hN rtid surroundings.construction
  have hidle' := drain_shareReference hidle rtid surroundings.construction
  unfold Outbound.shareAndPing at hshare
  split at hshare
  next heq =>
    rw [heq] at hshared hidle'
    exact hshared.ping hidle' hN hshare
  next heq =>
    rw [heq] at hshared hidle'
    cases hshare
    exact ⟨hidle', lists, hshared⟩

omit hN in
theorem dropReference (hdrop : outbound.dropReference rtid = some outbound') :
    Resting strict (fun _ ↦ 0) outbound' := by
  obtain ⟨p2p, hfind, hsome⟩ := bind_eq_some_iff.1 hdrop
  cases hsome
  split
  · exact ⟨hidle, lists, hsound.erasePeer rtid⟩
  · exact ⟨hidle, lists, hsound.setPeer_of_pending_le hfind (hsound.queues rtid p2p hfind).1 rfl rfl le_rfl⟩

theorem handleCommand {config : RuntimeConfig} {command : Command}
    (hcommand : outbound.handleCommand config surroundings command = some outbound') :
    Resting strict (fun _ ↦ 0) outbound' := by
  cases command with
  | addInputRuntime =>
    simp only [Outbound.handleCommand] at hcommand
    split at hcommand <;> cases hcommand
    · exact ⟨hidle, lists, hsound⟩
    · exact ⟨hidle, lists, hsound.build hN _ 0 _ 0⟩
  | addOutputRuntime =>
    simp only [Outbound.handleCommand] at hcommand
    split at hcommand
    · cases hcommand
    · exact (hsound.build hN _ 1 _ 0).ping hidle hN hcommand
  | deleteInputRuntime | deleteOutputRuntime =>
    simp only [Outbound.handleCommand] at hcommand
    exact (hsound.erasePeer _).removeFirst hidle (by decide) hcommand
  | addInputMac | addOutputMac => exact hsound.addToTail hidle (by decide) hcommand
  | deleteInputMac | deleteOutputMac =>
    simp only [Outbound.handleCommand] at hcommand
    exact hsound.removeFirst hidle (by decide) hcommand
  | setMigrationTarget => exact hsound.shareAndPing hidle hN hcommand
  | migrationNegotiate | addStorage =>
    cases hcommand
    exact ⟨drain_shareReference hidle _ _, lists, hsound.shareReference hN _ _⟩
  | deleteMigrationTarget | deleteMigrationSource | removeStorage => exact hsound.dropReference hidle hcommand
  | addReplica =>
    obtain ⟨listed, hadd, hshare⟩ := bind_eq_some_iff.1 hcommand
    obtain ⟨hidle', lists', hlisted⟩ := hsound.addToTail hidle (by decide) hadd
    exact hlisted.shareAndPing hidle' hN hshare
  | removeReplica =>
    obtain ⟨removed, hremove, hdrop⟩ := bind_eq_some_iff.1 hcommand
    obtain ⟨hidle', lists', hremoved⟩ := hsound.removeFirst hidle (by decide) hremove
    exact hremoved.dropReference hidle' hdrop

end

/-! ## The drain loop -/

theorem retire {rest : List ℕ} (hsound : Sound strict owed outbound lists)
    (hlist : lists .reliableSend = index :: rest) :
    (outbound.retire index).allocator.contents = outbound.allocator.contents ++ [index] ∧
      Sound strict (fun rtid ↦ owed rtid + share outbound.items rtid index)
        { outbound.retire index with drain := none }
        (update lists .reliableSend rest) := by
  obtain ⟨hcontents, hplaced⟩ := hsound.placed.release (List.nil_append (index :: rest) ▸ hlist)
  have hpop := hsound.placed.popHead hlist
  refine ⟨hcontents, ?_, (RingBuffer.maxSize_push _ _).trans hsound.capacity, hsound.queues, ?_, ?_, by simp⟩
  · simpa only [Outbound.retire, Outbound.popHead, deallocate, hpop, List.nil_append] using hplaced
  · intro other hother
    rw [update_self] at hother
    exact hsound.credit_nonneg other (hlist ▸ List.mem_cons_of_mem _ hother)
  · intro hstrict rtid p2p hfind hup
    have hfunded := hsound.funded hstrict rtid p2p hfind hup
    rw [hlist, credit_cons] at hfunded
    rw [update_self]
    simp only [Outbound.retire, Outbound.popHead, deallocate]
    omega

/-- The drain goes on with the new head of the send list. -/
theorem nextItem {drain : Drain} (hsound : Sound strict owed { outbound with drain := none } lists)
    (hnext : outbound.nextItem drain = some outbound') :
    outbound'.allocator = outbound.allocator ∧ Sound strict owed outbound' lists := by
  unfold Outbound.nextItem at hnext
  rw [Outbound.peekHead, hsound.placed.peekFirst .reliableSend, Option.bind_eq_bind, Option.bind_some] at hnext
  cases hnext
  refine ⟨rfl, { hsound with draining := ?_ }⟩
  intro drain' hdrain'
  cases hdrain'
  exact .inr rfl

end Sound

/-- An item whose credit exactly fills the batch is only met when the batch comes back full. -/
def FillsBatch (outbound : Outbound N) : Operation → Prop
  | .drainStep copyOk _ => ∀ drain index p2p, outbound.drain = some drain →
      drain.firstItem = some index →
      outbound.reliables (outbound.items index).reliableRtid = some p2p →
      (outbound.items index).pktNum = (kMaxBurst - drain.batch.length : ℕ) →
      kMaxBurst - drain.batch.length ≤ p2p.sendQueue.pendingSendNum ∧
        ∀ position < kMaxBurst - drain.batch.length, copyOk position = true
  | _ => True

/-- No copy of a packet fails. -/
def CopiesSucceed (_ : Outbound N) : Operation → Prop
  | .drainStep copyOk _ => ∀ position < kMaxBurst, copyOk position = true
  | _ => True

/-- An iteration reads the first item of the send list, which stays there or moves to the pool. -/
structure DrainEffect (outbound outbound' : Outbound N) (lists lists' : ItemList → List ℕ)
    (drain : Drain) (index : ℕ) (rest : List ℕ) : Prop where
  reads : drain.firstItem = some index
  before : lists .reliableSend = index :: rest
  after : (lists' .reliableSend = index :: rest ∧ outbound'.allocator = outbound.allocator) ∨
    (lists' .reliableSend = rest ∧
      outbound'.allocator.contents = outbound.allocator.contents ++ [index])

/-- A window of packets joins the batch. -/
theorem addBatch_getWindowBatch (hN : ValidSize N) {p2p : PeerToPeer N} {drain drain' : Drain} {gate : UInt16}
    {window : ℕ} {copyOk : ℕ → Bool} {currentNs : UInt64} (hwf : p2p.sendQueue.WellFormed)
    (hadd : addBatch drain gate (p2p.sendQueue.getWindowBatch window copyOk currentNs).1 = some drain') :
    ∃ sent, sent ≤ window ∧ sent ≤ p2p.sendQueue.pendingSendNum ∧
      (sent < min window p2p.sendQueue.pendingSendNum → copyOk sent = false) ∧
      (p2p.sendQueue.getWindowBatch window copyOk currentNs).2.WellFormed ∧
      (p2p.sendQueue.getWindowBatch window copyOk currentNs).2.pendingSendNum =
        p2p.sendQueue.pendingSendNum - sent ∧
      drain'.batch.length = drain.batch.length + sent ∧ drain'.firstItem = drain.firstItem := by
  obtain ⟨sent, hwindow, hpending, hstop, hbatch, hwf', -, -, -, -, hpending'⟩ :=
    SendQueue.getWindowBatch_spec hN hwf window copyOk currentNs
  refine ⟨sent, hwindow, hpending, hstop, hwf', hpending', ?_⟩
  unfold addBatch at hadd
  dsimp only at hadd
  split at hadd
  · cases hadd
    have hle := hwf.pending_le
    refine ⟨?_, rfl⟩
    rw [hbatch]
    simp only [List.length_append, List.length_map, List.length_take, List.length_drop,
      SendQueue.length_contents]
    omega
  · cases hadd

namespace Sound

theorem owe_more (owed' : ℤ → ℤ) (hsound : Sound strict owed outbound lists)
    (hle : ∀ rtid, owed rtid ≤ owed' rtid) : Sound strict owed' outbound lists := by
  refine { hsound with funded := ?_ }
  intro hstrict rtid p2p hfind hup
  have hfunded := hsound.funded hstrict rtid p2p hfind hup
  have hmore := hle rtid
  omega

variable {drain : Drain} {p2p : PeerToPeer N} {copyOk : ℕ → Bool} {currentNs : UInt64} {operation : Operation}

theorem withDrain (hsound : Sound strict owed outbound lists)
    (hdrain : kMaxBurst ≤ drain.batch.length ∨ drain.firstItem = (lists .reliableSend).head?) :
    Sound strict owed { outbound with drain := some drain } lists := by
  refine { hsound with draining := ?_ }
  intro drain' hdrain'
  cases hdrain'
  exact hdrain

variable (hN : ValidSize N)

include hN

/-- Sending a window uses up as much credit as was asked for. -/
theorem sendWindow {rtid : ℤ} (window : ℕ) (copyOk : ℕ → Bool) (currentNs : UInt64)
    (hsound : Sound strict (fun _ ↦ 0) outbound lists) (hfind : outbound.reliables rtid = some p2p)
    (hwindow : window ≤ kMaxBurst) (hcredit : (window : ℤ) ≤ credit outbound.items (lists .reliableSend) rtid)
    (hcopies : strict → outbound.CopiesSucceed (.drainStep copyOk currentNs)) :
    Sound strict (update (fun _ ↦ 0) rtid (-(window : ℤ))) (outbound.setPeer rtid { p2p with
        sendQueue := (p2p.sendQueue.getWindowBatch window copyOk currentNs).2 }) lists := by
  obtain ⟨hwf, hrtid⟩ := hsound.queues rtid p2p hfind
  obtain ⟨sent, hsent, -, hstop, -, hwf', -, -, -, -, hpending⟩ :=
    SendQueue.getWindowBatch_spec hN hwf window copyOk currentNs
  refine hsound.setPeer _ ?_ ?_ ?_
  · exact hwf'
  · exact hrtid
  intro hstrict hup
  have hfunded := hsound.funded hstrict rtid p2p hfind hup
  have hall : ¬ sent < min window p2p.sendQueue.pendingSendNum := by
    intro hlt
    have hok := hcopies hstrict sent (by omega)
    rw [hstop hlt] at hok
    cases hok
  dsimp only
  omega

variable (hsound : Sound strict (fun _ ↦ 0) outbound lists)

include hsound

theorem sendItem {index : ℕ} {rest : List ℕ} (hdrain : outbound.drain = some drain)
    (hreads : drain.firstItem = some index) (hlist : lists .reliableSend = index :: rest)
    (hfind : outbound.reliables (outbound.items index).reliableRtid = some p2p)
    (hfills : outbound.FillsBatch (.drainStep copyOk currentNs))
    (hcopies : strict → outbound.CopiesSucceed (.drainStep copyOk currentNs))
    (hstep : outbound.sendItem drain index p2p copyOk currentNs = some outbound') :
    ∃ lists', Sound strict (fun _ ↦ 0) outbound' lists' ∧
      DrainEffect outbound outbound' lists lists' drain index rest := by
  have hindex : index ∈ lists .reliableSend := by simp [hlist]
  obtain ⟨hwf, hrtid⟩ := hsound.queues _ p2p hfind
  have hnonneg := hsound.credit_nonneg index hindex
  have hcredit : (outbound.items index).pktNum ≤
      credit outbound.items (lists .reliableSend) (outbound.items index).reliableRtid := by
    have hrest : 0 ≤ credit outbound.items rest (outbound.items index).reliableRtid := by
      apply Reliable.credit_nonneg
      intro other hother
      exact hsound.credit_nonneg other (hlist ▸ List.mem_cons_of_mem _ hother)
    rw [hlist, credit_cons, share, if_pos rfl]
    omega
  unfold Outbound.sendItem at hstep
  dsimp only at hstep
  split at hstep
  next hfull =>
    obtain ⟨drain', hadd, hsome⟩ := bind_eq_some_iff.1 hstep
    obtain ⟨sent, hwindow, -, hstop, -, -, hlength, hfirst⟩ := addBatch_getWindowBatch hN hwf hadd
    have hsent := hsound.sendWindow hN _ copyOk currentNs hfind (Nat.sub_le _ _) (hfull.trans hcredit) hcopies
    have hdebit := (hsent.setPktNum
      ((outbound.items index).pktNum - (kMaxBurst - drain.batch.length : ℕ)) hindex (by omega)).owe_more
      (fun _ ↦ 0) <| by
        intro rtid
        by_cases heq : (outbound.items index).reliableRtid = rtid
        · subst heq
          simp [Outbound.setPeer]
        · simp [Outbound.setPeer, heq, update_of_ne (Ne.symm heq)]
    split at hsome
    next hzero =>
      cases hsome
      obtain ⟨hcontents, hretired⟩ := hdebit.retire hlist
      obtain ⟨hpending, hok⟩ := hfills drain index p2p hdrain hreads hfind (by omega)
      have hbatch : kMaxBurst ≤ drain'.batch.length := by
        by_contra hlt
        have hcopied := hok sent (by omega)
        rw [hstop (by omega)] at hcopied
        cases hcopied
      refine ⟨update lists .reliableSend rest, ?_, hreads, hlist, .inr ⟨update_self _ _ _, hcontents⟩⟩
      have hsettled := hretired.owe_more (fun _ ↦ 0) <| by
        intro rtid
        simp [share, hzero]
      exact hsettled.withDrain (.inl hbatch)
    next =>
      cases hsome
      refine ⟨lists, hdebit.withDrain (.inr ?_), hreads, hlist, .inl ⟨hlist, rfl⟩⟩
      rw [hfirst, hreads, hlist]
      rfl
  next hshort =>
    split at hstep
    · cases hstep
    · obtain ⟨drain', hadd, hnext⟩ := bind_eq_some_iff.1 hstep
      have hsent := hsound.sendWindow hN (outbound.items index).pktNum.toNat copyOk currentNs hfind
        (by omega) (by omega) hcopies
      obtain ⟨hcontents, hretired⟩ := hsent.retire hlist
      have hsettled := hretired.owe_more (fun _ ↦ 0) <| by
        intro rtid
        by_cases heq : (outbound.items index).reliableRtid = rtid
        · subst heq
          simp [share, Outbound.setPeer, hnonneg]
        · simp [share, Outbound.setPeer, heq, update_of_ne (Ne.symm heq)]
      obtain ⟨hallocator, hnexted⟩ := hsettled.nextItem hnext
      refine ⟨update lists .reliableSend rest, hnexted, hreads, hlist, .inr ⟨update_self _ _ _, ?_⟩⟩
      rw [hallocator]
      exact hcontents

theorem drainStep (hdrain : outbound.drain = some drain)
    (hfills : outbound.FillsBatch (.drainStep copyOk currentNs))
    (hcopies : strict → outbound.CopiesSucceed (.drainStep copyOk currentNs))
    (hstep : outbound.drainStep drain copyOk currentNs = some outbound') :
    ∃ lists' index rest, Sound strict (fun _ ↦ 0) outbound' lists' ∧
      DrainEffect outbound outbound' lists lists' drain index rest := by
  unfold Outbound.drainStep at hstep
  split at hstep
  next hroom =>
    split at hstep
    next => cases hstep
    next index hreads =>
      have hhead : drain.firstItem = (lists .reliableSend).head? :=
        (hsound.draining drain hdrain).resolve_left (by omega)
      obtain ⟨rest, hlist⟩ : ∃ rest, lists .reliableSend = index :: rest := by
        rw [hreads] at hhead
        exact List.head?_eq_some_iff.1 hhead.symm
      split at hstep
      next hfind =>
        obtain ⟨hcontents, hretired⟩ := hsound.retire hlist
        have hsettled : Sound strict (fun _ ↦ 0) { outbound.retire index with drain := none }
            (update lists .reliableSend rest) := by
          refine { hretired with funded := ?_ }
          intro hstrict rtid p2p hother hup
          have hfunded := hretired.funded hstrict rtid p2p hother hup
          have hne : (outbound.items index).reliableRtid ≠ rtid := by
            intro heq
            rw [heq] at hfind
            rw [Outbound.retire, Outbound.popHead, deallocate, hfind] at hother
            cases hother
          rwa [share, if_neg hne] at hfunded
        obtain ⟨hallocator, hnexted⟩ := hsettled.nextItem hstep
        refine ⟨update lists .reliableSend rest, index, rest, hnexted, hreads, hlist,
          .inr ⟨update_self _ _ _, ?_⟩⟩
        rw [hallocator]
        exact hcontents
      next p2p hfind =>
        obtain ⟨lists', hsent, heffect⟩ := hsound.sendItem hN hdrain hreads hlist hfind hfills hcopies hstep
        exact ⟨lists', index, rest, hsent, heffect⟩
  next => cases hstep

/-- Every operation outside the drain loop. -/
theorem applyIdle (hidle : outbound.drain = none) (hstep : outbound.applyIdle operation = some outbound') :
    ∃ lists', Sound strict (fun _ ↦ 0) outbound' lists' := by
  cases operation with
  | sendCstruct =>
    exact (hsound.reliableSend hidle hN
      (fun _ _ _ hwf hcall ↦ PeerToPeer.pushed_reliableSendCstruct hwf hcall) hstep).2
  | sendBatch =>
    exact (hsound.reliableSend hidle hN
      (fun _ _ _ hwf hcall ↦ PeerToPeer.pushed_reliableSendBatch hwf hcall) hstep).2
  | sendReplication =>
    exact (hsound.reliableSend hidle hN
      (fun _ _ _ hwf hcall ↦ PeerToPeer.pushed_reliableSendReplication hN hwf hcall) hstep).2
  | recv => exact (hsound.recv hidle hN hstep).2
  | check => exact (hsound.check hidle hN hstep).2
  | getAckPkt => exact (hsound.getAckPkt hidle hstep).2
  | rotate =>
    simp only [Outbound.applyIdle] at hstep
    split at hstep <;> cases hstep
    next hlist => exact hsound.rotate hidle hlist
  | command => exact (hsound.handleCommand hidle hN hstep).2
  | startDrain =>
    simp only [Outbound.applyIdle, startDrain, Outbound.peekHead,
      hsound.placed.peekFirst .reliableSend, Option.bind_eq_bind, Option.bind_some,
      Option.some.injEq] at hstep
    subst hstep
    exact ⟨lists, hsound.withDrain (.inr rfl)⟩
  | drainStep => cases hstep
  | finishDrain => cases hstep

theorem step (hfills : outbound.FillsBatch operation) (hcopies : strict → outbound.CopiesSucceed operation)
    (hstep : outbound.step operation = some outbound') :
    ∃ lists', Sound strict (fun _ ↦ 0) outbound' lists' := by
  unfold Outbound.step at hstep
  split at hstep
  next hidle => exact hsound.applyIdle hN hidle hstep
  next drain hdrain =>
    split at hstep
    next copyOk currentNs =>
      obtain ⟨lists', -, -, hsound', -⟩ := hsound.drainStep hN hdrain hfills hcopies hstep
      exact ⟨lists', hsound'⟩
    next =>
      split at hstep <;> cases hstep
      exact ⟨lists, { hsound with draining := by simp }⟩
    next => cases hstep

end Sound

/-- The invariant in every run whose steps meet the condition, and with `strict` lose no copy. -/
theorem sound_of_reachable (hN : ValidSize N) {guard : Outbound N → Operation → Prop}
    (hfills : ∀ outbound operation, guard outbound operation → outbound.FillsBatch operation)
    (hcopies : ∀ outbound operation, guard outbound operation → strict → outbound.CopiesSucceed operation)
    (hreach : (system N).Reachable guard outbound) : ∃ lists, Sound strict (fun _ ↦ 0) outbound lists := by
  apply hreach.invariant
  · rintro outbound ⟨items, rfl⟩
    exact ⟨_, sound_init items⟩
  · rintro outbound operation outbound' ⟨lists, hsound⟩ hguard hstep
    exact hsound.step hN (hfills outbound operation hguard) (hcopies outbound operation hguard) hstep

end Outbound

end NfvActor.Reliable
