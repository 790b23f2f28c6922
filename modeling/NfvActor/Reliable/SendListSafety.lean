import Mathlib.Tactic
import NfvActor.Reliable.SendListInvariant

/-!
# Conservation of list items and of send credit

Every list item is in exactly one place, as long as the drain loop never meets an item whose credit is exactly
the room left in the batch while the peer has fewer packets to give: the loop then goes on with an item it has
already freed. In such runs each list serves its items in turn, and if no copy fails the credit covers what is
pending.
-/

namespace NfvActor.Reliable

open Foundation

namespace Outbound

variable {N : ℕ}

/-- A packet with room for all headers. -/
def emptyPacket : Packet := Packet.ofBytes 193 []

/-- A worker with an empty pool history. -/
def fresh : Outbound reliableSendQueueSize := init fun _ ↦ ⟨0, 0, 0, 0, 0, 0⟩

theorem init_fresh : (system reliableSendQueueSize).init fresh := ⟨_, rfl⟩

/-- What commands find in memory in these runs. -/
def blank : Surroundings :=
  ⟨⟨[], 0, fun _ ↦ ⟨⟨[], 0, 0⟩, emptyPacket⟩, fun _ ↦ 0, fun _ ↦ [],
    ⟨0, ⟨0, 0, 0, 0, 0⟩, none, [], none, []⟩⟩, 0, []⟩

/-- The command that creates a peer without a ping. -/
def addPeer (rtid : ℤ) : Operation := .command .addInputRuntime ⟨rtid, 0, 0, 0⟩ blank

/-- One message accepted and a drain begun. -/
def sendOne : List Operation :=
  [addPeer 1, .sendCstruct 1 ⟨1, 1, 0, 0⟩ [] true, .startDrain]

theorem fillsBatch_sendOne : ∀ operation ∈ sendOne, ∀ outbound : Outbound N,
    outbound.FillsBatch operation ∧ outbound.CopiesSucceed operation := by
  intro operation hoperation outbound
  simp only [sendOne, List.mem_cons, List.not_mem_nil, or_false] at hoperation
  rcases hoperation with rfl | rfl | rfl <;> exact ⟨trivial, trivial⟩

/-- Every item is in exactly one place, and an iteration reads the first item of the send list, which stays
there or goes back to the pool. -/
def ItemsConserved (outbound : Outbound N) : Prop :=
  ∃ lists, Partition outbound.allocator outbound.links lists ∧
    (∀ index < itemPoolSize,
      outbound.allocator.contents.count index + ∑ list, (lists list).count index = 1) ∧
    ∀ drain copyOk currentNs outbound', outbound.drain = some drain →
      outbound.FillsBatch (.drainStep copyOk currentNs) →
      outbound.drainStep drain copyOk currentNs = some outbound' →
      ∃ lists' index rest, Partition outbound'.allocator outbound'.links lists' ∧
        DrainEffect outbound outbound' lists lists' drain index rest

/-- Items are conserved as long as an item whose credit exactly fills the batch is met only when its peer fills
the batch. -/
theorem items_conserved (hN : ValidSize N) {outbound : Outbound N}
    (hreach : (system N).Reachable FillsBatch outbound) : outbound.ItemsConserved := by
  obtain ⟨lists, hsound⟩ : ∃ lists, Sound False (fun _ ↦ 0) outbound lists :=
    sound_of_reachable hN (fun _ _ hguard ↦ hguard) (fun _ _ _ hfalse ↦ hfalse.elim) hreach
  refine ⟨lists, hsound.placed, ?_, ?_⟩
  · intro index hindex
    exact hsound.placed.count_eq_one (hsound.capacity ▸ hindex)
  · intro drain copyOk currentNs outbound' hdrain hfills hstep
    obtain ⟨lists', index, rest, hsound', heffect⟩ :=
      hsound.drainStep hN hdrain hfills False.elim hstep
    exact ⟨lists', index, rest, hsound'.placed, heffect⟩

theorem items_conserved_after_send : ∃ outbound : Outbound reliableSendQueueSize,
    outbound.peekHead .reliableSend = some (some 0) ∧ outbound.ItemsConserved := by
  obtain ⟨outbound, houtbound, hvalue⟩ : ∃ outbound ∈ (system reliableSendQueueSize).run fresh sendOne,
      outbound.peekHead .reliableSend = some (some 0) := by decide +kernel
  have hreach := TransitionSystem.reachable_run sendOne (.start init_fresh)
    (fun operation hoperation s ↦ (fillsBatch_sendOne operation hoperation s).1) houtbound
  exact ⟨outbound, hvalue, items_conserved validSize_reliableSendQueueSize hreach⟩

/-- The 32 packets of a peer are rewound and then acknowledged; the drain meets their credit with nothing to
send, and another peer's behind it. -/
def lateAck : List Operation :=
  [addPeer 1, addPeer 2, .sendBatch 1 ⟨1, 1, 0, 0⟩ (List.replicate 32 emptyPacket),
    .startDrain, .drainStep (fun _ ↦ true) 0, .finishDrain, .check 1 1000000000000,
    .recv 1 0 0 ⟨⟨[], ackMagicNum, 33⟩, emptyPacket⟩,
    .sendCstruct 2 ⟨1, 1, 0, 0⟩ [] true, .startDrain, .drainStep (fun _ ↦ true) 0,
    .drainStep (fun _ ↦ true) 0]

/-- The second iteration frees the first item again and loses the second: the free ring holds an item twice
although the send list is empty. -/
theorem items_not_conserved_after_late_ack : ∃ outbound : Outbound reliableSendQueueSize,
    (system reliableSendQueueSize).Reachable TransitionSystem.anyStep outbound ∧
    outbound.peekHead .reliableSend = some none ∧ ¬ outbound.ItemsConserved := by
  obtain ⟨outbound, houtbound, hhead, hsize, hmax, hsame, hempty⟩ :
      ∃ outbound ∈ (system reliableSendQueueSize).run fresh lateAck, outbound.allocator.headPos = 3 ∧
        outbound.allocator.curSize = itemPoolSize ∧ outbound.allocator.maxSize = itemPoolSize ∧
        outbound.allocator.ringBuf 1 = outbound.allocator.ringBuf 2 ∧
        outbound.peekHead .reliableSend = some none := by decide +kernel
  refine ⟨outbound, .replay init_fresh houtbound, hempty, ?_⟩
  rintro ⟨lists, hplaced, -⟩
  have hcell : ∀ offset < itemPoolSize, outbound.allocator.contents[offset]? =
      some (outbound.allocator.ringBuf ((3 + offset) % itemPoolSize)) := by
    intro offset hoffset
    simp [RingBuffer.contents, hhead, hmax, hsize, List.getElem?_range hoffset]
  have hdistinct := List.nodup_iff_getElem?_ne_getElem?.1 hplaced.free_nodup
    (itemPoolSize - 2) (itemPoolSize - 1) (by decide) (by rw [RingBuffer.length_contents, hsize]; decide)
  rw [hcell _ (by decide), hcell _ (by decide)] at hdistinct
  exact hdistinct (congrArg some hsame)

/-- Credit covers the pending packets of every peer that is up. -/
def PendingFunded (outbound : Outbound N) : Prop :=
  ∃ lists, Partition outbound.allocator outbound.links lists ∧
    ∀ rtid p2p, outbound.reliables rtid = some p2p → p2p.isConnectionUp = true →
      (p2p.sendQueue.pendingSendNum : ℤ) ≤ credit outbound.items (lists .reliableSend) rtid

/-- Pending packets keep their credit if moreover no copy fails. -/
theorem pending_funded (hN : ValidSize N) {outbound : Outbound N}
    (hreach : (system N).Reachable
      (fun outbound operation ↦ outbound.FillsBatch operation ∧ outbound.CopiesSucceed operation)
      outbound) :
    outbound.PendingFunded := by
  obtain ⟨lists, hsound⟩ : ∃ lists, Sound True (fun _ ↦ 0) outbound lists :=
    sound_of_reachable hN (fun _ _ hguard ↦ hguard.1) (fun _ _ hguard _ ↦ hguard.2) hreach
  refine ⟨lists, hsound.placed, ?_⟩
  intro rtid p2p hfind hup
  simpa using hsound.funded trivial rtid p2p hfind hup

theorem pending_funded_after_send : ∃ outbound : Outbound reliableSendQueueSize,
    (outbound.reliables 1).map (fun p2p ↦ p2p.sendQueue.pendingSendNum) = some 1 ∧
    outbound.PendingFunded := by
  obtain ⟨outbound, houtbound, hvalue⟩ : ∃ outbound ∈ (system reliableSendQueueSize).run fresh sendOne,
      (outbound.reliables 1).map (fun p2p ↦ p2p.sendQueue.pendingSendNum) = some 1 := by decide +kernel
  have hreach := TransitionSystem.reachable_run sendOne (.start init_fresh)
    (fun operation hoperation s ↦ fillsBatch_sendOne operation hoperation s) houtbound
  exact ⟨outbound, hvalue, pending_funded validSize_reliableSendQueueSize hreach⟩

/-- One packet is sent, and its copy fails. -/
def failedCopy : List Operation :=
  [addPeer 1, .sendCstruct 1 ⟨1, 1, 0, 0⟩ [] true, .startDrain, .drainStep (fun _ ↦ false) 0,
    .finishDrain]

/-- The packet stays pending, but its credit is gone. -/
theorem pending_not_funded_after_failed_copy : ∃ outbound : Outbound reliableSendQueueSize,
    (system reliableSendQueueSize).Reachable TransitionSystem.anyStep outbound ∧
    outbound.peekHead .reliableSend = some none ∧ ¬ outbound.PendingFunded := by
  obtain ⟨outbound, houtbound, hempty, p2p, hfind, hpending, hup⟩ :
      ∃ outbound ∈ (system reliableSendQueueSize).run fresh failedCopy,
        outbound.peekHead .reliableSend = some none ∧
        ∃ p2p ∈ outbound.reliables 1, p2p.sendQueue.pendingSendNum = 1 ∧ p2p.isConnectionUp = true := by
    decide +kernel
  refine ⟨outbound, .replay init_fresh houtbound, hempty, ?_⟩
  rintro ⟨lists, hplaced, hfunded⟩
  have hnil : lists .reliableSend = [] := by
    have hpeek := hplaced.peekFirst .reliableSend
    rw [← Outbound.peekHead, hempty] at hpeek
    exact List.head?_eq_none_iff.1 (Option.some.inj hpeek).symm
  have hle := hfunded 1 p2p hfind hup
  rw [hnil, hpending] at hle
  simp [credit] at hle

/-- What so many calls of `rotate` on a list return, one after the other. -/
def rotations (list : ItemList) : ℕ → Outbound N → List (Option (PoolNode ItemList))
  | 0, _ => []
  | turns + 1, outbound =>
    (outbound.links.rotateLeft (.head list)).1 :: rotations list turns (outbound.rotate list)

/-- The items come in the order of the list, over and over again. -/
theorem rotations_eq (list : ItemList) (turns : ℕ) {outbound : Outbound N} {lists : ItemList → List ℕ}
    (hplaced : Partition outbound.allocator outbound.links lists) :
    rotations list turns outbound =
        (List.range turns).map (fun turn ↦ (lists list)[turn % (lists list).length]?.map .item) ∧
      Partition outbound.allocator ((rotate · list)^[turns] outbound).links
        (Function.update lists list ((lists list).rotate turns)) := by
  induction turns generalizing outbound lists with
  | zero => simpa [rotations] using hplaced
  | succ turns ih =>
    obtain ⟨hfirst, hnext⟩ := hplaced.rotate list
    obtain ⟨hreturned, hleft⟩ := @ih (outbound.rotate list) _ hnext
    rw [Function.update_self, Function.update_idem, List.rotate_rotate, Nat.add_comm] at hleft
    rw [Function.update_self, List.length_rotate] at hreturned
    have hturn (turn : ℕ) : ((lists list).rotate 1)[turn % (lists list).length]? =
        (lists list)[(turn + 1) % (lists list).length]? := by
      rcases (lists list).length.eq_zero_or_pos with hnil | hpos
      · rw [List.length_eq_zero_iff.1 hnil]
        rfl
      · rw [List.getElem?_rotate (Nat.mod_lt _ hpos), Nat.mod_add_mod]
    refine ⟨?_, hleft⟩
    rw [rotations, hfirst, hreturned, List.range_succ_eq_map, List.map_cons, List.map_map, Nat.zero_mod,
      List.head?_eq_getElem?]
    exact congrArg _ (List.map_congr_left fun turn _ ↦ congrArg _ (hturn turn))

/-- The turns of a round-robin list hand its items out in order and begin again behind the last; other lists and
the pool stay. -/
theorem round_robin_in_order (hN : ValidSize N) {outbound : Outbound N}
    (hreach : (system N).Reachable FillsBatch outbound) (list : ItemList) (turns : ℕ) :
    ∃ lists, Partition outbound.allocator outbound.links lists ∧ rotations list turns outbound =
        (List.range turns).map (fun turn ↦ (lists list)[turn % (lists list).length]?.map .item) ∧
      Partition outbound.allocator ((rotate · list)^[turns] outbound).links
        (Function.update lists list ((lists list).rotate turns)) := by
  obtain ⟨lists, hsound⟩ : ∃ lists, Sound False (fun _ ↦ 0) outbound lists :=
    sound_of_reachable hN (fun _ _ hguard ↦ hguard) (fun _ _ _ hfalse ↦ hfalse.elim) hreach
  exact ⟨lists, hsound.placed, rotations_eq list turns hsound.placed⟩

theorem round_robin_two_macs : ∃ (outbound : Outbound reliableSendQueueSize) (lists : ItemList → List ℕ),
    rotations .inputRuntimeMac 3 outbound = [some (.item 0), some (.item 1), some (.item 0)] ∧
      Partition outbound.allocator outbound.links lists := by
  obtain ⟨outbound, houtbound, hturns⟩ : ∃ outbound ∈ (system reliableSendQueueSize).run fresh
      (List.replicate 2 (.command .addInputMac ⟨1, 0, 0, 0⟩ blank)), rotations .inputRuntimeMac 3 outbound =
        [some (.item 0), some (.item 1), some (.item 0)] := by decide +kernel
  have hreach : (system _).Reachable FillsBatch outbound := TransitionSystem.reachable_run _
    (.start init_fresh) (fun _ hmem _ ↦ by rw [List.eq_of_mem_replicate hmem]; trivial) houtbound
  obtain ⟨lists, hplaced, -⟩ :=
    round_robin_in_order validSize_reliableSendQueueSize hreach .inputRuntimeMac 3
  exact ⟨outbound, lists, hturns, hplaced⟩

end Outbound

end NfvActor.Reliable
