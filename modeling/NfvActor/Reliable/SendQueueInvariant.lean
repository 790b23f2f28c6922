import NfvActor.Reliable.SendQueue

/-!
# What each send-queue operation does to the queued packets

The cursors of a send queue determine each other, in positions modulo the array size and in sequence numbers
modulo `2 ^ 32`, and the queued packets carry consecutive numbers. Every operation keeps this and acts on the
list of queued packets as a queue operation; a release never straddles the wrap of the numbers.
-/

namespace NfvActor.Reliable

open Function

/-- What the template asserts of its array size. -/
structure ValidSize (N : ℕ) : Prop where
  power : ∃ exponent, N = 2 ^ exponent
  small : N < 2 ^ 32

theorem ValidSize.pos {N : ℕ} (hN : ValidSize N) : 0 < N := by
  obtain ⟨exponent, rfl⟩ := hN.power
  positivity

theorem validSize_reliableSendQueueSize : ValidSize reliableSendQueueSize := ⟨⟨12, rfl⟩, by decide⟩

theorem toNat_add_ofNat (base : UInt32) (offset : ℕ) :
    (base + UInt32.ofNat offset).toNat = (base.toNat + offset) % 2 ^ 32 := by
  simp [UInt32.toNat_add]

namespace SendQueue

variable {N : ℕ} {α : Type}

theorem slot_eq_mod (hN : ValidSize N) (position : ℕ) : slot N position = position % N := by
  obtain ⟨exponent, rfl⟩ := hN.power
  exact Nat.and_two_pow_sub_one_eq_mod position exponent

/-- The cursors agree with each other and with the numbers of the queued packets. -/
structure WellFormed (queue : SendQueue N α) : Prop where
  pending_le : queue.pendingSendNum ≤ queue.curSize
  size_le : queue.curSize ≤ N
  head_lt : queue.headPos < N
  tail_eq : queue.tailPos = (queue.headPos + queue.curSize) % N
  window_eq : queue.windowPos = (queue.headPos + (queue.curSize - queue.pendingSendNum)) % N
  next_eq : queue.nextSeqNum = queue.headSeqNum + UInt32.ofNat queue.curSize
  windowSeq_eq : queue.windowPosSeqNum =
    queue.headSeqNum + UInt32.ofNat (queue.curSize - queue.pendingSendNum)
  headers : ∀ index < queue.curSize,
    (queue.ringBuf (slot N (queue.headPos + index))).header.magicNum = msgMagicNum ∧
    (queue.ringBuf (slot N (queue.headPos + index))).header.seqNum =
      queue.headSeqNum + UInt32.ofNat index

@[simp]
theorem length_oldest (queue : SendQueue N α) (count : ℕ) : (queue.oldest count).length = count := by
  simp [oldest]

@[simp]
theorem length_contents (queue : SendQueue N α) : queue.contents.length = queue.curSize := by
  simp [contents]

theorem getElem_contents (queue : SendQueue N α) (index : ℕ) (hindex : index < queue.contents.length) :
    queue.contents[index] = queue.ringBuf (slot N (queue.headPos + index)) := by
  simp [contents, oldest]

variable {queue queue' : SendQueue N α} {ackSeqNum : UInt32} {collected : List (Segment α)}

theorem oldest_eq_take {count : ℕ} (hcount : count ≤ queue.curSize) :
    queue.oldest count = queue.contents.take count := by
  simp [contents, oldest, ← List.map_take, List.take_range, Nat.min_eq_left hcount]

theorem wellFormed_init (hN : ValidSize N) (ringBuf : ℕ → Segment α) (sendTime : ℕ → UInt64)
    (rh : α → List UInt8) : (init ringBuf sendTime rh : SendQueue N α).WellFormed where
  pending_le := le_rfl
  size_le := Nat.zero_le _
  head_lt := hN.pos
  tail_eq := by simp [init]
  window_eq := by simp [init]
  next_eq := rfl
  windowSeq_eq := rfl
  headers := by simp [init]

theorem contents_init (ringBuf : ℕ → Segment α) (sendTime : ℕ → UInt64) (rh : α → List UInt8) :
    (init ringBuf sendTime rh : SendQueue N α).contents = [] := rfl

/-- The cell written by a push is none of the occupied ones. -/
theorem ringBuf_push (hN : ValidSize N) (hwf : queue.WellFormed) (hroom : queue.curSize < N)
    (cell : Segment α) (index : ℕ) (hindex : index < queue.curSize) :
    update queue.ringBuf queue.tailPos cell (slot N (queue.headPos + index)) =
      queue.ringBuf (slot N (queue.headPos + index)) := by
  rw [update_of_ne]
  rw [slot_eq_mod hN, hwf.tail_eq]
  intro heq
  have hmod : index % N = queue.curSize % N := Nat.ModEq.add_left_cancel' queue.headPos heq
  rw [Nat.mod_eq_of_lt (hindex.trans hroom), Nat.mod_eq_of_lt hroom] at hmod
  exact hindex.ne hmod

theorem push_full (payload : α) (hfull : queue.curSize = N) : queue.push payload = (false, queue) := by
  simp [push, hfull]

theorem contents_push (hN : ValidSize N) (hwf : queue.WellFormed) (payload : α) (hroom : queue.curSize < N) :
    (queue.push payload).2.contents = queue.contents ++ [queue.formatSendPacket payload queue.nextSeqNum] := by
  unfold push
  rw [if_neg hroom.ne]
  simp only [contents, oldest, List.range_succ, List.map_append, List.map_cons, List.map_nil]
  congr 1
  · apply List.map_congr_left
    intro index hindex
    exact ringBuf_push hN hwf hroom _ index (List.mem_range.1 hindex)
  · rw [slot_eq_mod hN, ← hwf.tail_eq, update_self]

theorem WellFormed.push (hN : ValidSize N) (hwf : queue.WellFormed) (payload : α) :
    (queue.push payload).2.WellFormed := by
  by_cases hfull : queue.curSize = N
  · rwa [push_full payload hfull]
  have hroom : queue.curSize < N := lt_of_le_of_ne hwf.size_le hfull
  have hpending := hwf.pending_le
  have hbehind : queue.curSize + 1 - (queue.pendingSendNum + 1) =
      queue.curSize - queue.pendingSendNum := by omega
  unfold SendQueue.push
  rw [if_neg hfull]
  refine ⟨?_, ?_, hwf.head_lt, ?_, ?_, ?_, ?_, ?_⟩
  · exact Nat.succ_le_succ hpending
  · exact hroom
  · simp only [slot_eq_mod hN, hwf.tail_eq, Nat.mod_add_mod]
    rfl
  · simp only [hbehind, hwf.window_eq]
  · simp only [hwf.next_eq, UInt32.ofNat_add, UInt32.add_assoc]
    rfl
  · simp only [hbehind, hwf.windowSeq_eq]
  · intro index hindex
    simp only at hindex ⊢
    rcases Nat.lt_succ_iff_lt_or_eq.1 hindex with hlt | rfl
    · rw [ringBuf_push hN hwf hroom _ index hlt]
      exact hwf.headers index hlt
    · rw [slot_eq_mod hN, ← hwf.tail_eq, update_self, formatSendPacket, hwf.next_eq]
      exact ⟨rfl, rfl⟩

/-- A release finds head, acknowledgement and next number in plain order. -/
theorem pop_order (hwf : queue.WellFormed) (hN : ValidSize N)
    (hpop : ¬ (queue.curSize = 0 ∨ ackSeqNum ≤ queue.headSeqNum ∨ queue.nextSeqNum < ackSeqNum)) :
    queue.headSeqNum.toNat < ackSeqNum.toNat ∧ ackSeqNum.toNat ≤ queue.headSeqNum.toNat + queue.curSize ∧
      queue.headSeqNum.toNat + queue.curSize < 2 ^ 32 ∧
      (ackSeqNum - queue.headSeqNum).toNat = ackSeqNum.toNat - queue.headSeqNum.toNat := by
  simp only [not_or, UInt32.le_iff_toNat_le, UInt32.lt_iff_toNat_lt, not_le, not_lt] at hpop
  obtain ⟨-, hhead, hnext⟩ := hpop
  rw [hwf.next_eq, toNat_add_ofNat] at hnext
  have hsize := hwf.size_le
  have hsmall := hN.small
  have hheadLt := queue.headSeqNum.toNat_lt
  have hackLt := ackSeqNum.toNat_lt
  refine ⟨hhead, by omega, by omega, ?_⟩
  rw [UInt32.toNat_sub]
  omega

/-- The queue left by a release of `popNum` packets. -/
theorem pop_spec (hN : ValidSize N) (hwf : queue.WellFormed) (ackSeqNum : UInt32) (currentNs : UInt64)
    (hpop : ¬ (queue.curSize = 0 ∨ ackSeqNum ≤ queue.headSeqNum ∨ queue.nextSeqNum < ackSeqNum)) :
    ∃ queue', queue.pop ackSeqNum currentNs =
        some (queue.contents.take (ackSeqNum - queue.headSeqNum).toNat, queue') ∧
      queue'.WellFormed ∧
      queue'.contents = queue.contents.drop (ackSeqNum - queue.headSeqNum).toNat ∧
      queue'.headSeqNum = ackSeqNum ∧ queue'.nextSeqNum = queue.nextSeqNum ∧
      queue'.pendingSendNum ≤ queue.pendingSendNum := by
  obtain ⟨hhead, hack, hwrap, hsub⟩ := pop_order hwf hN hpop
  generalize hnum : (ackSeqNum - queue.headSeqNum).toNat = popNum at hsub ⊢
  have hnumLe : popNum ≤ queue.curSize := by omega
  have hpending := hwf.pending_le
  have hsize := hwf.size_le
  have hcells : ∀ index, slot N (slot N (queue.headPos + popNum) + index) =
      slot N (queue.headPos + (popNum + index)) := by
    intro index
    simp only [slot_eq_mod hN, Nat.mod_add_mod, add_assoc]
  have hcontents : (List.range (queue.curSize - popNum)).map (fun index ↦
      queue.ringBuf (slot N (slot N (queue.headPos + popNum) + index))) = queue.contents.drop popNum := by
    apply List.ext_getElem
    · simp
    · intro index hleft hright
      simp [getElem_contents, hcells]
  have hackEq : ackSeqNum = queue.headSeqNum + UInt32.ofNat popNum := by
    rw [← UInt32.toNat_inj, toNat_add_ofNat]
    omega
  have hnext : queue.nextSeqNum = ackSeqNum + UInt32.ofNat (queue.curSize - popNum) := by
    rw [hwf.next_eq, hackEq, UInt32.add_assoc, ← UInt32.ofNat_add, Nat.add_sub_cancel' hnumLe]
  have hheaders : ∀ index < queue.curSize - popNum,
      (queue.ringBuf (slot N (slot N (queue.headPos + popNum) + index))).header.magicNum = msgMagicNum ∧
      (queue.ringBuf (slot N (slot N (queue.headPos + popNum) + index))).header.seqNum =
        ackSeqNum + UInt32.ofNat index := by
    intro index hindex
    obtain ⟨hmagic, hseq⟩ := hwf.headers (popNum + index) (by omega)
    rw [hcells, hmagic, hseq, hackEq, UInt32.add_assoc, UInt32.ofNat_add]
    exact ⟨rfl, rfl⟩
  have hheadLt : slot N (queue.headPos + popNum) < N := by
    rw [slot_eq_mod hN]
    exact Nat.mod_lt _ hN.pos
  have htail : queue.tailPos = (slot N (queue.headPos + popNum) + (queue.curSize - popNum)) % N := by
    rw [hwf.tail_eq, slot_eq_mod hN, Nat.mod_add_mod]
    congr 1
    omega
  unfold SendQueue.pop
  rw [if_neg hpop, hnum]
  simp only [not_lt.2 hnumLe, if_false, Option.some.injEq, Prod.mk.injEq, ← and_assoc, oldest_eq_take hnumLe]
  simp only [and_assoc, true_and]
  by_cases hwindow : queue.windowPosSeqNum < ackSeqNum
  · refine ⟨_, rfl, ?_⟩
    rw [if_pos hwindow]
    refine ⟨⟨le_rfl, (Nat.sub_le _ _).trans hsize, hheadLt, htail, ?_, hnext, ?_, hheaders⟩,
      hcontents, rfl, rfl, ?_⟩
    · simp [slot_eq_mod hN]
    · simp
    · rw [UInt32.lt_iff_toNat_lt, hwf.windowSeq_eq, toNat_add_ofNat] at hwindow
      simp only
      omega
  · refine ⟨_, rfl, ?_⟩
    rw [if_neg hwindow]
    have hbehind : popNum ≤ queue.curSize - queue.pendingSendNum := by
      rw [UInt32.lt_iff_toNat_lt, hwf.windowSeq_eq, toNat_add_ofNat] at hwindow
      omega
    refine ⟨⟨?_, (Nat.sub_le _ _).trans hsize, hheadLt, htail, ?_, hnext, ?_, hheaders⟩,
      hcontents, rfl, rfl, le_rfl⟩
    · simp only
      omega
    · simp only [hwf.window_eq, slot_eq_mod hN, Nat.mod_add_mod]
      congr 1
      omega
    · simp only [hwf.windowSeq_eq]
      rw [hackEq, UInt32.add_assoc, ← UInt32.ofNat_add]
      congr 2
      omega

theorem pop_frame {currentNs : UInt64} (hpop : queue.pop ackSeqNum currentNs = some (collected, queue')) :
    queue'.rh = queue.rh ∧ queue'.nextSeqNum = queue.nextSeqNum := by
  unfold SendQueue.pop at hpop
  split at hpop
  · cases hpop
    exact ⟨rfl, rfl⟩
  · dsimp only at hpop
    split at hpop
    · cases hpop
    · cases hpop
      split <;> exact ⟨rfl, rfl⟩

/-- An acknowledgement keeps the invariant and makes nothing pending. -/
theorem WellFormed.pop (hN : ValidSize N) (hwf : queue.WellFormed) {currentNs : UInt64}
    (hpop : queue.pop ackSeqNum currentNs = some (collected, queue')) :
    queue'.WellFormed ∧ queue'.pendingSendNum ≤ queue.pendingSendNum := by
  by_cases hskip : queue.curSize = 0 ∨ ackSeqNum ≤ queue.headSeqNum ∨ queue.nextSeqNum < ackSeqNum
  · rw [SendQueue.pop, if_pos hskip] at hpop
    cases hpop
    exact ⟨hwf, le_rfl⟩
  · obtain ⟨released, hreleased, hwf', -, -, -, hpending⟩ := pop_spec hN hwf ackSeqNum currentNs hskip
    rw [hreleased] at hpop
    cases hpop
    exact ⟨hwf', hpending⟩

/-- The copy loop takes consecutive packets up to the first failed copy. -/
theorem copyLoop_spec (queue : SendQueue N α) (copyOk : ℕ → Bool) (currentNs : UInt64)
    (left pos : ℕ) (batch : List (Segment α)) (sendTime : ℕ → UInt64) :
    ∃ count ≤ left, (count < left → copyOk (pos + count) = false) ∧
      (queue.copyLoop copyOk currentNs left pos batch sendTime).1 = batch ++ (List.range count).map
          (fun index ↦ queue.ringBuf (slot N (queue.windowPos + (pos + index)))) ∧
      (queue.copyLoop copyOk currentNs left pos batch sendTime).2.2 = pos + count := by
  induction left generalizing pos batch sendTime with
  | zero => exact ⟨0, le_rfl, by simp, by simp [copyLoop], by simp [copyLoop]⟩
  | succ _ ih =>
    rw [copyLoop]
    split
    · obtain ⟨count, hcount, hstop, hbatch, hpos⟩ := ih (pos + 1)
        (batch ++ [queue.ringBuf (slot N (queue.windowPos + pos))])
        (update sendTime (slot N (queue.windowPos + pos)) currentNs)
      refine ⟨count + 1, Nat.succ_le_succ hcount, ?_, ?_, ?_⟩
      · intro hlt
        rw [← hstop (Nat.lt_of_succ_lt_succ hlt)]
        congr 1
        omega
      · rw [hbatch, List.append_assoc, List.range_succ_eq_map, List.map_cons, List.map_map]
        congr 1
        simp only [List.singleton_append, add_zero, List.cons.injEq, true_and]
        apply List.map_congr_left
        intro index _
        simp only [Function.comp_apply]
        congr 3
        omega
      · rw [hpos]
        omega
    · next hfail =>
      exact ⟨0, Nat.zero_le _, fun _ ↦ by simpa using hfail, by simp, by simp⟩

/-- Sending takes the packets at the window position, in order and as queued. -/
theorem getWindowBatch_spec (hN : ValidSize N) (hwf : queue.WellFormed) (windowSize : ℕ) (copyOk : ℕ → Bool)
    (currentNs : UInt64) :
    ∃ sent, sent ≤ windowSize ∧ sent ≤ queue.pendingSendNum ∧
      (sent < min windowSize queue.pendingSendNum → copyOk sent = false) ∧
      (queue.getWindowBatch windowSize copyOk currentNs).1 =
        (queue.contents.drop (queue.curSize - queue.pendingSendNum)).take sent ∧
      (queue.getWindowBatch windowSize copyOk currentNs).2.WellFormed ∧
      (queue.getWindowBatch windowSize copyOk currentNs).2.contents = queue.contents ∧
      (queue.getWindowBatch windowSize copyOk currentNs).2.headSeqNum = queue.headSeqNum ∧
      (queue.getWindowBatch windowSize copyOk currentNs).2.nextSeqNum = queue.nextSeqNum ∧
      (queue.getWindowBatch windowSize copyOk currentNs).2.curSize = queue.curSize ∧
      (queue.getWindowBatch windowSize copyOk currentNs).2.pendingSendNum = queue.pendingSendNum - sent := by
  have hclamp : (if queue.pendingSendNum < windowSize then queue.pendingSendNum else windowSize) =
      min windowSize queue.pendingSendNum := by
    split <;> omega
  obtain ⟨sent, hsent, hstop, hbatch, hpos⟩ := queue.copyLoop_spec copyOk currentNs
    (min windowSize queue.pendingSendNum) 0 [] queue.sendTime
  have hpending := hwf.pending_le
  have hsize := hwf.size_le
  unfold getWindowBatch
  simp only [hclamp, hpos, Nat.zero_add]
  refine ⟨sent, by omega, by omega, by simpa using hstop, ?_,
    ⟨?_, hsize, hwf.head_lt, hwf.tail_eq, ?_, hwf.next_eq, ?_, hwf.headers⟩, rfl,
    trivial, trivial, trivial, rfl⟩
  · rw [hbatch, List.nil_append]
    apply List.ext_getElem
    · simp
      omega
    · intro index hleft hright
      simp only [List.getElem_map, List.getElem_range, List.getElem_take, List.getElem_drop, getElem_contents]
      congr 1
      simp only [slot_eq_mod hN, hwf.window_eq, Nat.mod_add_mod, Nat.zero_add, add_assoc]
  · simp only
    omega
  · simp only [slot_eq_mod hN, hwf.window_eq, Nat.mod_add_mod, add_assoc]
    congr 2
    omega
  · simp only [hwf.windowSeq_eq, UInt32.add_assoc, ← UInt32.ofNat_add]
    congr 2
    omega

theorem resetWindowPos_spec (hwf : queue.WellFormed) :
    queue.resetWindowPos.2.WellFormed ∧ queue.resetWindowPos.2.contents = queue.contents := by
  refine ⟨⟨le_rfl, hwf.size_le, hwf.head_lt, hwf.tail_eq, ?_, hwf.next_eq, ?_, hwf.headers⟩, rfl⟩
  · simp [resetWindowPos, Nat.mod_eq_of_lt hwf.head_lt]
  · simp [resetWindowPos]

theorem reset_spec (hN : ValidSize N) (queue : SendQueue N α) :
    queue.reset.2.WellFormed ∧ queue.reset.2.contents = [] := by
  refine ⟨⟨le_rfl, Nat.zero_le _, hN.pos, ?_, ?_, rfl, rfl, ?_⟩, rfl⟩
  · simp [reset]
  · simp [reset]
  · simp [reset]

theorem foldl_push_headSeqNum (batch : List α) (queue : SendQueue N α) :
    (batch.foldl (fun q payload ↦ (q.push payload).2) queue).headSeqNum = queue.headSeqNum := by
  induction batch generalizing queue with
  | nil => rfl
  | cons _ _ ih =>
    rw [List.foldl_cons, ih, push]
    split <;> rfl

/-- A batch that fits is pushed packet by packet. -/
theorem pushBatch_spec (hN : ValidSize N) (hwf : queue.WellFormed) (batch : List α)
    (hfit : batch.length + queue.curSize ≤ N) :
    (queue.pushBatch batch).1 = true ∧ (queue.pushBatch batch).2.WellFormed ∧
      (queue.pushBatch batch).2.curSize = queue.curSize + batch.length ∧
      (queue.pushBatch batch).2.pendingSendNum = queue.pendingSendNum + batch.length := by
  unfold pushBatch
  rw [if_neg (not_lt.2 hfit)]
  refine ⟨rfl, ?_⟩
  induction batch generalizing queue with
  | nil => exact ⟨hwf, rfl, rfl⟩
  | cons payload _ ih =>
    rw [List.length_cons] at hfit
    have hroom : queue.curSize ≠ N := by omega
    have hsize : (queue.push payload).2.curSize = queue.curSize + 1 := by simp [push, hroom]
    have hpending : (queue.push payload).2.pendingSendNum = queue.pendingSendNum + 1 := by
      simp [push, hroom]
    obtain ⟨hwf', hsize', hpending'⟩ := ih (hwf.push hN payload) (by omega)
    rw [List.foldl_cons, hsize', hpending', List.length_cons]
    exact ⟨hwf', by omega, by omega⟩

end SendQueue

end NfvActor.Reliable
