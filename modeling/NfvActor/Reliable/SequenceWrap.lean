import NfvActor.Foundation.Transition
import NfvActor.Reliable.SendQueueInvariant

/-!
# Acknowledgements and the wrap of the sequence numbers

The receiver counts modulo `2 ^ 32`, but `pop` compares its acknowledgements with the cursors as plain integers.
In every reachable state an acknowledgement releases the packets it stands for exactly when the numbers of the
queued packets do not run past `2 ^ 32`; otherwise it is ignored.
-/

namespace NfvActor.Reliable

open NfvActor.Foundation

namespace SendQueue

variable {N : ℕ} {α : Type}

/-- The operations that drive a send queue, with what the environment decides. -/
inductive Operation (α : Type) where
  | push (payload : α)
  | pushBatch (batch : List α)
  | getWindowBatch (windowSize : ℕ) (copyOk : ℕ → Bool) (currentNs : UInt64)
  | resetWindowPos
  | pop (ackSeqNum : UInt32) (currentNs : UInt64)

def apply (queue : SendQueue N α) : Operation α → Option (SendQueue N α)
  | .push payload => some (queue.push payload).2
  | .pushBatch batch => some (queue.pushBatch batch).2
  | .getWindowBatch windowSize copyOk currentNs =>
    some (queue.getWindowBatch windowSize copyOk currentNs).2
  | .resetWindowPos => some queue.resetWindowPos.2
  | .pop ackSeqNum currentNs => (queue.pop ackSeqNum currentNs).map Prod.snd

/-- A queue from its construction on. -/
def lifetime (N : ℕ) (α : Type) : TransitionSystem (SendQueue N α) (Operation α) where
  init queue := ∃ ringBuf sendTime rh, queue = init ringBuf sendTime rh
  step := apply

variable {queue : SendQueue N α}

theorem WellFormed.pushBatch (hN : ValidSize N) (hwf : queue.WellFormed) (batch : List α) :
    (queue.pushBatch batch).2.WellFormed := by
  by_cases hfit : N < batch.length + queue.curSize
  · rwa [SendQueue.pushBatch, if_pos hfit]
  · exact (pushBatch_spec hN hwf batch (not_lt.1 hfit)).2.1

theorem WellFormed.apply (hN : ValidSize N) {queue' : SendQueue N α} (hwf : queue.WellFormed)
    (operation : Operation α) (hstep : queue.apply operation = some queue') : queue'.WellFormed := by
  cases operation with
  | push payload => exact Option.some.inj hstep ▸ hwf.push hN payload
  | pushBatch batch => exact Option.some.inj hstep ▸ hwf.pushBatch hN batch
  | getWindowBatch windowSize copyOk currentNs =>
    obtain ⟨_, _, _, _, _, hwf', _⟩ := getWindowBatch_spec hN hwf windowSize copyOk currentNs
    exact Option.some.inj hstep ▸ hwf'
  | resetWindowPos => exact Option.some.inj hstep ▸ (resetWindowPos_spec hwf).1
  | pop =>
    obtain ⟨⟨collected, released⟩, hpop, rfl⟩ := Option.map_eq_some_iff.1 hstep
    exact (hwf.pop hN hpop).1

theorem wellFormed_of_reachable (hN : ValidSize N)
    (hreach : (lifetime N α).Reachable TransitionSystem.anyStep queue) : queue.WellFormed := by
  apply hreach.invariant
  · rintro _ ⟨ringBuf, sendTime, rh, rfl⟩
    exact wellFormed_init hN ringBuf sendTime rh
  · intro queue operation queue' hwf _ hstep
    exact hwf.apply hN operation hstep

/-- Exactly the packets before `ackSeqNum` are released, it becomes the head, and the others stay in order. -/
def Acknowledges (queue : SendQueue N α) (ackSeqNum : UInt32) (currentNs : UInt64) : Prop :=
  ∃ queue', queue.pop ackSeqNum currentNs =
      some (queue.contents.take (ackSeqNum - queue.headSeqNum).toNat, queue') ∧
    queue'.headSeqNum = ackSeqNum ∧
    queue'.contents = queue.contents.drop (ackSeqNum - queue.headSeqNum).toNat

/-- Once the numbers of queued packets run past `2 ^ 32`, nothing is released. -/
theorem pop_ignored_of_wrap (hN : ValidSize N) (hwf : queue.WellFormed) (ackSeqNum : UInt32)
    (currentNs : UInt64) (hwrap : 2 ^ 32 ≤ queue.headSeqNum.toNat + queue.curSize) :
    queue.pop ackSeqNum currentNs = some ([], queue) := by
  have hsize := hwf.size_le
  have hsmall := hN.small
  have hheadLt := queue.headSeqNum.toNat_lt
  have hackLt := ackSeqNum.toNat_lt
  have hnext : queue.nextSeqNum.toNat = queue.headSeqNum.toNat + queue.curSize - 2 ^ 32 := by
    rw [hwf.next_eq, toNat_add_ofNat]
    omega
  unfold SendQueue.pop
  rw [if_pos]
  simp only [UInt32.le_iff_toNat_le, UInt32.lt_iff_toNat_lt]
  omega

theorem acknowledges_iff (hN : ValidSize N) {queue : SendQueue N α}
    (hreach : (lifetime N α).Reachable TransitionSystem.anyStep queue) (ackSeqNum : UInt32) (currentNs : UInt64)
    (hpos : 1 ≤ (ackSeqNum - queue.headSeqNum).toNat)
    (hle : (ackSeqNum - queue.headSeqNum).toNat ≤ queue.curSize) :
    queue.Acknowledges ackSeqNum currentNs ↔ queue.headSeqNum.toNat + queue.curSize < 2 ^ 32 := by
  have hwf := wellFormed_of_reachable hN hreach
  constructor
  · rintro ⟨queue', hpop, -, -⟩
    by_contra hwrap
    rw [pop_ignored_of_wrap hN hwf ackSeqNum currentNs (not_lt.1 hwrap)] at hpop
    simp only [Option.some.injEq, Prod.mk.injEq] at hpop
    have hlength := congrArg List.length hpop.1
    rw [List.length_nil, List.length_take, length_contents] at hlength
    omega
  · intro hplain
    have hpop : ¬ (queue.curSize = 0 ∨ ackSeqNum ≤ queue.headSeqNum ∨
        queue.nextSeqNum < ackSeqNum) := by
      have hackLt := ackSeqNum.toNat_lt
      have hheadLt := queue.headSeqNum.toNat_lt
      rw [UInt32.toNat_sub] at hpos hle
      simp only [not_or, UInt32.le_iff_toNat_le, UInt32.lt_iff_toNat_lt, not_le, not_lt]
      rw [hwf.next_eq, toNat_add_ofNat]
      omega
    obtain ⟨queue', hreleased, -, hcontents, hhead, -⟩ := pop_spec hN hwf ackSeqNum currentNs hpop
    exact ⟨queue', hreleased, hhead, hcontents⟩

theorem acknowledges_first :
    ((init (fun _ ↦ ⟨⟨[], 0, 0⟩, ()⟩) (fun _ ↦ 0) (fun _ ↦ []) :
      SendQueue reliableSendQueueSize Unit).push ()).2.Acknowledges 2 0 :=
  (acknowledges_iff validSize_reliableSendQueueSize
    (.next (.push ()) (.start ⟨_, _, _, rfl⟩) trivial rfl) 2 0 (by decide) (by decide)).2
    (by decide)

/-- Pushing and acknowledging one packet, over and over, walks the numbers up to the wrap. -/
theorem reachable_idle (count : ℕ) (hcount : count < 2 ^ 32 - 1) :
    ∃ queue : SendQueue reliableSendQueueSize Unit,
      (lifetime reliableSendQueueSize Unit).Reachable TransitionSystem.anyStep queue ∧
      queue.curSize = 0 ∧ queue.headSeqNum.toNat = count + 1 := by
  induction count with
  | zero =>
    exact ⟨init (fun _ ↦ ⟨⟨[], 0, 0⟩, ()⟩) (fun _ ↦ 0) (fun _ ↦ []), .start ⟨_, _, _, rfl⟩, rfl, rfl⟩
  | succ count ih =>
    obtain ⟨queue, hreach, hempty, hhead⟩ := ih (by omega)
    have hN := validSize_reliableSendQueueSize
    have hroom : queue.curSize ≠ reliableSendQueueSize := by rw [hempty]; decide
    have hpush := hreach.next (.push ()) trivial rfl
    have hwf := wellFormed_of_reachable hN hpush
    have hsize : (queue.push ()).2.curSize = 1 := by
      rw [SendQueue.push, if_neg hroom, hempty]
    have hheadPush : (queue.push ()).2.headSeqNum = queue.headSeqNum := by
      simp [SendQueue.push, hroom]
    have hack : (queue.headSeqNum + 1).toNat = count + 2 := by
      rw [UInt32.toNat_add, hhead]
      simp
      omega
    have hpop : ¬ ((queue.push ()).2.curSize = 0 ∨ queue.headSeqNum + 1 ≤ (queue.push ()).2.headSeqNum ∨
        (queue.push ()).2.nextSeqNum < queue.headSeqNum + 1) := by
      simp only [not_or, UInt32.le_iff_toNat_le, UInt32.lt_iff_toNat_lt, not_le, not_lt]
      rw [hwf.next_eq, toNat_add_ofNat, hheadPush, hsize, hack, hhead]
      omega
    obtain ⟨released, hreleased, -, hcontents, hheadPop, -⟩ := pop_spec hN hwf (queue.headSeqNum + 1) 0 hpop
    refine ⟨released, hpush.next (.pop (queue.headSeqNum + 1) 0) trivial ?_, ?_, ?_⟩
    · simp [lifetime, SendQueue.apply, hreleased]
    · rw [← length_contents, hcontents, List.length_drop, length_contents, hsize, hheadPush,
        UInt32.toNat_sub, hack, hhead]
      omega
    · rw [hheadPop, hack]

/-- With two packets queued at the last number before the wrap, the acknowledgement of the first is ignored. -/
theorem acknowledges_fails_at_wrap : ∃ queue : SendQueue reliableSendQueueSize Unit,
    (lifetime reliableSendQueueSize Unit).Reachable TransitionSystem.anyStep queue ∧
    queue.headSeqNum = 4294967295 ∧ queue.curSize = 2 ∧
    1 ≤ ((0 : UInt32) - queue.headSeqNum).toNat ∧
    ((0 : UInt32) - queue.headSeqNum).toNat ≤ queue.curSize ∧
    queue.pop 0 0 = some ([], queue) ∧ ¬ queue.Acknowledges 0 0 := by
  obtain ⟨queue, hreach, hempty, hhead⟩ := reachable_idle (2 ^ 32 - 2) (by norm_num)
  have hN := validSize_reliableSendQueueSize
  have hhead' : queue.headSeqNum = 4294967295 := by
    rw [← UInt32.toNat_inj, hhead]
    rfl
  have hpush := (hreach.next (.push ()) trivial rfl).next (.push ()) trivial rfl
  have hroom : queue.curSize ≠ reliableSendQueueSize := by rw [hempty]; decide
  have hsize : ((queue.push ()).2.push ()).2.curSize = 2 := by
    simp [SendQueue.push, hempty, reliableSendQueueSize]
  have hheadPush : ((queue.push ()).2.push ()).2.headSeqNum = 4294967295 := by
    simp [SendQueue.push, hempty, reliableSendQueueSize, hhead']
  have hwf := wellFormed_of_reachable hN hpush
  have hpos : 1 ≤ ((0 : UInt32) - ((queue.push ()).2.push ()).2.headSeqNum).toNat := by
    rw [hheadPush]
    decide
  have hle : ((0 : UInt32) - ((queue.push ()).2.push ()).2.headSeqNum).toNat ≤
      ((queue.push ()).2.push ()).2.curSize := by
    rw [hheadPush, hsize]
    decide
  have hwrap : 2 ^ 32 ≤ ((queue.push ()).2.push ()).2.headSeqNum.toNat +
      ((queue.push ()).2.push ()).2.curSize := by
    rw [hheadPush, hsize]
    decide
  have hignored := pop_ignored_of_wrap hN hwf 0 0 hwrap
  refine ⟨_, hpush, hheadPush, hsize, hpos, hle, hignored, ?_⟩
  rintro ⟨queue', hpop, -, -⟩
  rw [hignored] at hpop
  simp only [Option.some.injEq, Prod.mk.injEq] at hpop
  have hlength := congrArg List.length hpop.1
  rw [List.length_nil, List.length_take, length_contents] at hlength
  omega

end SendQueue

end NfvActor.Reliable
