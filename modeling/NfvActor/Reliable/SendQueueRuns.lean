import Mathlib.Tactic
import NfvActor.Foundation.Transition
import NfvActor.Reliable.SendQueueInvariant

/-!
# Runs of a send queue

A send queue is pushed to, sent from, acknowledged, rewound and reset in any order. What was released followed
by what is queued is everything that was pushed since the last reset, in order and numbered from one, and the
cursors stay in step.
-/

namespace NfvActor.Reliable

open NfvActor.Foundation

/-- The operations on a send queue; `get_window_batch` is asked for at most a batch. -/
inductive QueueInput (α : Type)
  | push (payload : α)
  | pushBatch (batch : List α)
  | pop (ackSeqNum : UInt32) (currentNs : UInt64)
  | getWindowBatch (windowSize : ℕ) (hburst : windowSize ≤ kMaxBurst) (copyOk : ℕ → Bool)
      (currentNs : UInt64)
  | resetWindowPos
  | reset

/-- A send queue with what was accepted and released since it was last reset. -/
structure QueueRun (N : ℕ) (α : Type) where
  queue : SendQueue N α
  accepted : List α
  released : List (Segment α)

namespace QueueRun

variable {N : ℕ} {α : Type}

def step (run : QueueRun N α) : QueueInput α → Option (QueueRun N α)
  | .push payload =>
    let pushed := run.queue.push payload
    some { run with
      queue := pushed.2
      accepted := if pushed.1 then run.accepted ++ [payload] else run.accepted }
  | .pushBatch batch =>
    let pushed := run.queue.pushBatch batch
    some { run with
      queue := pushed.2
      accepted := if pushed.1 then run.accepted ++ batch else run.accepted }
  | .pop ackSeqNum currentNs =>
    (run.queue.pop ackSeqNum currentNs).map fun popped ↦
      { run with queue := popped.2, released := run.released ++ popped.1 }
  | .getWindowBatch windowSize _ copyOk currentNs =>
    some { run with queue := (run.queue.getWindowBatch windowSize copyOk currentNs).2 }
  | .resetWindowPos => some { run with queue := run.queue.resetWindowPos.2 }
  | .reset => some ⟨run.queue.reset.2, [], []⟩

/-- Runs start with a new queue, whatever its arrays hold. -/
def system (N : ℕ) (α : Type) : TransitionSystem (QueueRun N α) (QueueInput α) where
  init run := ∃ ringBuf sendTime rh, run = ⟨.init ringBuf sendTime rh, [], []⟩
  step := step

/-- Packets formatted with the numbers they get after a reset. -/
def numbered (queue : SendQueue N α) (accepted : List α) : List (Segment α) :=
  accepted.mapIdx fun index payload ↦ queue.formatSendPacket payload (1 + UInt32.ofNat index)

theorem numbered_append (queue : SendQueue N α) (accepted : List α) (payload : α) :
    numbered queue (accepted ++ [payload]) = numbered queue accepted ++
      [queue.formatSendPacket payload (1 + UInt32.ofNat accepted.length)] := by
  simp [numbered, List.mapIdx_append]

theorem numbered_congr {queue queue' : SendQueue N α} (hrh : queue'.rh = queue.rh)
    (accepted : List α) : numbered queue' accepted = numbered queue accepted := by
  simp only [numbered, SendQueue.formatSendPacket, hrh]

/-- The queue holds what has been accepted and not been released. -/
structure Logged (run : QueueRun N α) : Prop where
  wellFormed : run.queue.WellFormed
  log : run.released ++ run.queue.contents = numbered run.queue run.accepted
  head : run.queue.headSeqNum = 1 + UInt32.ofNat run.released.length

namespace Logged

variable {run : QueueRun N α}

theorem length (h : run.Logged) : run.released.length + run.queue.curSize = run.accepted.length := by
  have hlength := congrArg List.length h.log
  simpa [numbered] using hlength

/-- Operations that change neither the queued packets nor the head. -/
theorem of_same (h : run.Logged) {queue : SendQueue N α} (hwf : queue.WellFormed)
    (hcontents : queue.contents = run.queue.contents) (hhead : queue.headSeqNum = run.queue.headSeqNum)
    (hrh : queue.rh = run.queue.rh) : Logged { run with queue := queue } where
  wellFormed := hwf
  log := by
    rw [numbered_congr hrh, hcontents]
    exact h.log
  head := hhead.trans h.head

theorem push (hN : ValidSize N) (h : run.Logged) (payload : α) (hroom : run.queue.curSize ≠ N) :
    Logged { run with queue := (run.queue.push payload).2, accepted := run.accepted ++ [payload] } where
  wellFormed := h.wellFormed.push hN payload
  log := by
    have hlt : run.queue.curSize < N := lt_of_le_of_ne h.wellFormed.size_le hroom
    have hrh : (run.queue.push payload).2.rh = run.queue.rh := by
      rw [SendQueue.push, if_neg hroom]
    have hnext : run.queue.nextSeqNum = 1 + UInt32.ofNat run.accepted.length := by
      rw [h.wellFormed.next_eq, h.head, ← h.length, UInt32.ofNat_add, UInt32.add_assoc]
    rw [numbered_congr hrh, numbered_append, ← h.log, SendQueue.contents_push hN h.wellFormed payload hlt,
      hnext, List.append_assoc]
  head := by
    rw [← h.head, SendQueue.push, if_neg hroom]

theorem foldl_push (hN : ValidSize N) (batch : List α) (h : run.Logged)
    (hfit : batch.length + run.queue.curSize ≤ N) :
    Logged { run with
      queue := batch.foldl (fun queue payload ↦ (queue.push payload).2) run.queue
      accepted := run.accepted ++ batch } := by
  induction batch generalizing run with
  | nil =>
    rw [List.append_nil]
    exact h
  | cons payload _ ih =>
    rw [List.length_cons] at hfit
    have hroom : run.queue.curSize ≠ N := by omega
    have hsize : (run.queue.push payload).2.curSize = run.queue.curSize + 1 := by
      rw [SendQueue.push, if_neg hroom]
    have hpushed := h.push hN payload hroom
    have hrest := ih hpushed (by rw [hsize]; omega)
    rw [List.append_assoc, List.singleton_append] at hrest
    exact hrest

theorem pop (hN : ValidSize N) (h : run.Logged) (ackSeqNum : UInt32) (currentNs : UInt64) :
    ∃ popped, run.queue.pop ackSeqNum currentNs = some popped ∧
      Logged { run with queue := popped.2, released := run.released ++ popped.1 } := by
  by_cases hskip : run.queue.curSize = 0 ∨ ackSeqNum ≤ run.queue.headSeqNum ∨ run.queue.nextSeqNum < ackSeqNum
  · refine ⟨([], run.queue), ?_, ?_⟩
    · rw [SendQueue.pop, if_pos hskip]
    · rw [List.append_nil]
      exact h
  · obtain ⟨queue, hpop, hwf, hcontents, hhead, -, -⟩ :=
      SendQueue.pop_spec hN h.wellFormed ackSeqNum currentNs hskip
    obtain ⟨hlt, hle, -, hsub⟩ := SendQueue.pop_order h.wellFormed hN hskip
    refine ⟨_, hpop, hwf, ?_, ?_⟩
    · rw [numbered_congr (SendQueue.pop_frame hpop).1, hcontents, List.append_assoc, List.take_append_drop]
      exact h.log
    · have hcount : (run.queue.contents.take (ackSeqNum - run.queue.headSeqNum).toNat).length =
          (ackSeqNum - run.queue.headSeqNum).toNat := by
        rw [List.length_take, SendQueue.length_contents]
        omega
      rw [List.length_append, hcount, UInt32.ofNat_add, ← UInt32.add_assoc, ← h.head, UInt32.ofNat_toNat,
        hhead, UInt32.add_comm, UInt32.sub_add_cancel]

theorem step (hN : ValidSize N) (h : run.Logged) (input : QueueInput α) :
    ∃ run', run.step input = some run' ∧ run'.Logged := by
  cases input with
  | push payload =>
    refine ⟨_, rfl, ?_⟩
    by_cases hfull : run.queue.curSize = N
    · rw [SendQueue.push_full payload hfull]
      exact h
    · have haccepted : (run.queue.push payload).1 = true := by
        rw [SendQueue.push, if_neg hfull]
      rw [haccepted, if_pos rfl]
      exact h.push hN payload hfull
  | pushBatch batch =>
    refine ⟨_, rfl, ?_⟩
    by_cases hfull : N < batch.length + run.queue.curSize
    · rw [SendQueue.pushBatch, if_pos hfull]
      exact h
    · rw [SendQueue.pushBatch, if_neg hfull, if_pos rfl]
      exact h.foldl_push hN batch (not_lt.1 hfull)
  | pop ackSeqNum currentNs =>
    obtain ⟨popped, hpop, hlogged⟩ := h.pop hN ackSeqNum currentNs
    exact ⟨_, Option.map_eq_some_iff.2 ⟨popped, hpop, rfl⟩, hlogged⟩
  | getWindowBatch windowSize _ copyOk currentNs =>
    obtain ⟨sent, -, -, -, -, hwf, hcontents, hhead, -⟩ :=
      SendQueue.getWindowBatch_spec hN h.wellFormed windowSize copyOk currentNs
    exact ⟨_, rfl, h.of_same hwf hcontents hhead rfl⟩
  | resetWindowPos =>
    obtain ⟨hwf, hcontents⟩ := SendQueue.resetWindowPos_spec h.wellFormed
    exact ⟨_, rfl, h.of_same hwf hcontents rfl rfl⟩
  | reset =>
    obtain ⟨hwf, hcontents⟩ := SendQueue.reset_spec hN run.queue
    exact ⟨_, rfl, hwf, hcontents, rfl⟩

end Logged

/-- Sizes and cursors agree, every occupied slot holds the packet pushed in its turn under the number of its
turn, and no acknowledgement violates the assertion. -/
structure Represents (run : QueueRun N α) : Prop where
  sizes : run.queue.pendingSendNum ≤ run.queue.curSize ∧ run.queue.curSize ≤ N
  next : run.queue.nextSeqNum - run.queue.headSeqNum = UInt32.ofNat run.queue.curSize
  windowSeq : run.queue.windowPosSeqNum - run.queue.headSeqNum =
    UInt32.ofNat (run.queue.curSize - run.queue.pendingSendNum)
  positions : run.queue.headPos < N ∧ run.queue.tailPos < N ∧ run.queue.windowPos < N
  tail : run.queue.tailPos = (run.queue.headPos + run.queue.curSize) % N
  window : run.queue.windowPos =
    (run.queue.headPos + run.queue.curSize - run.queue.pendingSendNum) % N
  slots : ∀ index < run.queue.curSize, ∃ payload,
    run.accepted[run.accepted.length - run.queue.curSize + index]? = some payload ∧
      run.queue.ringBuf (SendQueue.slot N (run.queue.headPos + index)) =
        run.queue.formatSendPacket payload (run.queue.headSeqNum + UInt32.ofNat index)
  assertion : ∀ ackSeqNum currentNs, run.queue.pop ackSeqNum currentNs ≠ none

theorem Logged.slot {run : QueueRun N α} (h : run.Logged) {index : ℕ} (hindex : index < run.queue.curSize) :
    ∃ payload, run.accepted[run.released.length + index]? = some payload ∧
      run.queue.ringBuf (SendQueue.slot N (run.queue.headPos + index)) =
        run.queue.formatSendPacket payload (run.queue.headSeqNum + UInt32.ofNat index) := by
  have hlength := h.length
  have hlt : run.released.length + index < run.accepted.length := by omega
  refine ⟨run.accepted[run.released.length + index], List.getElem?_eq_getElem hlt, ?_⟩
  have hcell : (run.released ++ run.queue.contents)[run.released.length + index]? =
      some (run.queue.ringBuf (SendQueue.slot N (run.queue.headPos + index))) := by
    rw [List.getElem?_append_right (Nat.le_add_right _ _), Nat.add_sub_cancel_left,
      List.getElem?_eq_getElem (by simpa using hindex), SendQueue.getElem_contents]
  rw [h.log, numbered, List.getElem?_mapIdx, List.getElem?_eq_getElem hlt] at hcell
  rw [h.head, UInt32.add_assoc, ← UInt32.ofNat_add]
  exact (Option.some.inj hcell).symm

/-- The representation invariant holds after any sequence of operations. -/
theorem representation_invariant (hN : ValidSize N) {run : QueueRun N α}
    (hreach : (system N α).Reachable TransitionSystem.anyStep run) : run.Represents := by
  have hlogged : run.Logged := by
    apply hreach.invariant
    · rintro run ⟨ringBuf, sendTime, rh, rfl⟩
      exact ⟨SendQueue.wellFormed_init hN ringBuf sendTime rh, rfl, rfl⟩
    · intro run input run' h _ hstep
      obtain ⟨next, hnext, hlogged⟩ := h.step hN input
      have heq : next = run' := Option.some.inj (hnext.symm.trans hstep)
      rwa [← heq]
  have hwf := hlogged.wellFormed
  have hlength := hlogged.length
  refine ⟨⟨hwf.pending_le, hwf.size_le⟩, ?_, ?_, ⟨hwf.head_lt, ?_, ?_⟩, hwf.tail_eq, ?_, ?_, ?_⟩
  · rw [hwf.next_eq, UInt32.add_comm, UInt32.add_sub_cancel]
  · rw [hwf.windowSeq_eq, UInt32.add_comm, UInt32.add_sub_cancel]
  · rw [hwf.tail_eq]
    exact Nat.mod_lt _ hN.pos
  · rw [hwf.window_eq]
    exact Nat.mod_lt _ hN.pos
  · rw [hwf.window_eq, Nat.add_sub_assoc hwf.pending_le]
  · intro index hindex
    have hreleased : run.accepted.length - run.queue.curSize = run.released.length := by omega
    rw [hreleased]
    exact hlogged.slot hindex
  · intro ackSeqNum currentNs hnone
    obtain ⟨popped, hpop, -⟩ := hlogged.pop hN ackSeqNum currentNs
    rw [hnone] at hpop
    cases hpop

/-- Two packets are pushed, one is sent and acknowledged: the other is left in the second slot. -/
theorem representation_invariant_after_ack : ∃ run : QueueRun 4 Bool,
    (system 4 Bool).run ⟨.init (fun _ ↦ ⟨⟨[], 0, 0⟩, true⟩) (fun _ ↦ 0) (fun _ ↦ []), [], []⟩
        [.pushBatch [true, false], .getWindowBatch 1 (by decide) (fun _ ↦ true) 5, .pop 2 9] = some run ∧
      run.queue.curSize = 1 ∧ run.queue.headPos = 1 ∧ run.Represents := by
  obtain ⟨run, hsteps, hsize, hhead⟩ : ∃ run ∈ (system 4 Bool).run
      ⟨.init (fun _ ↦ ⟨⟨[], 0, 0⟩, true⟩) (fun _ ↦ 0) (fun _ ↦ []), [], []⟩
      [.pushBatch [true, false], .getWindowBatch 1 (by decide) (fun _ ↦ true) 5, .pop 2 9],
      run.queue.curSize = 1 ∧ run.queue.headPos = 1 := by decide
  refine ⟨run, hsteps, hsize, hhead, representation_invariant ⟨⟨2, rfl⟩, by decide⟩ ?_⟩
  exact .replay ⟨_, _, _, rfl⟩ hsteps

end QueueRun

end NfvActor.Reliable
