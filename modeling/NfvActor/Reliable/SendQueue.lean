import Mathlib.Tactic

/-!
# The send queue of a reliable connection

`SendQueue` is the class template `reliable_send_queue<N>`: a ring of packets that are numbered when they are
pushed, sent from a movable window, and released when the peer acknowledges them. Sequence numbers are 32-bit
and wrap; positions are reduced with the mask `N - 1`. The clock and the outcome of each packet copy are inputs,
and the cells of a new queue hold arbitrary values.
-/

namespace NfvActor.Reliable

def msgMagicNum : UInt8 := 0xA1

def ackMagicNum : UInt8 := 0xB2

def defaultRtt : UInt64 := 20000

def reliableSendQueueSize : ℕ := 4096

/-- The size of a packet batch. -/
def kMaxBurst : ℕ := 32

/-- `reliable_header`: the Ethernet and IPv4 headers as bytes, and the fields of the protocol. -/
structure ReliableHeader where
  frame : List UInt8
  magicNum : UInt8
  seqNum : UInt32
deriving DecidableEq, Repr

/-- A packet on the wire: the header and what follows it. -/
structure Segment (α : Type) where
  header : ReliableHeader
  payload : α
deriving DecidableEq, Repr

structure SendQueue (N : ℕ) (α : Type) where
  headPos : ℕ
  headSeqNum : UInt32
  tailPos : ℕ
  nextSeqNum : UInt32
  curSize : ℕ
  windowPos : ℕ
  windowPosSeqNum : UInt32
  pendingSendNum : ℕ
  ringBuf : ℕ → Segment α
  sendTime : ℕ → UInt64
  rtt : UInt64
  rh : α → List UInt8

namespace SendQueue

variable {N : ℕ} {α : Type}

/-- Reduction of a position with the mask of the template. -/
def slot (N position : ℕ) : ℕ := position &&& (N - 1)

/-- The constructor; arrays are uninitialised. `rh` gives the lower headers for a packet's length. -/
def init (ringBuf : ℕ → Segment α) (sendTime : ℕ → UInt64) (rh : α → List UInt8) :
    SendQueue N α where
  headPos := 0
  headSeqNum := 1
  tailPos := 0
  nextSeqNum := 1
  curSize := 0
  windowPos := 0
  windowPosSeqNum := 1
  pendingSendNum := 0
  ringBuf := ringBuf
  sendTime := sendTime
  rtt := defaultRtt
  rh := rh

variable (queue : SendQueue N α)

/-- The `count` oldest packets, as the loops over the ring read them. -/
def oldest (count : ℕ) : List (Segment α) :=
  (List.range count).map fun index ↦ queue.ringBuf (slot N (queue.headPos + index))

/-- The queued packets, oldest first. -/
def contents : List (Segment α) := queue.oldest queue.curSize

/-- All queued packets go to the collector and the numbering starts again. -/
def reset : List (Segment α) × SendQueue N α :=
  (queue.contents,
    { queue with
      headPos := 0
      headSeqNum := 1
      tailPos := 0
      nextSeqNum := 1
      curSize := 0
      windowPos := 0
      windowPosSeqNum := 1
      pendingSendNum := 0 })

def formatSendPacket (payload : α) (nextSeqNum : UInt32) : Segment α :=
  ⟨⟨queue.rh payload, msgMagicNum, nextSeqNum⟩, payload⟩

def push (payload : α) : Bool × SendQueue N α :=
  if queue.curSize = N then (false, queue)
  else (true,
    { queue with
      ringBuf := Function.update queue.ringBuf queue.tailPos
        (queue.formatSendPacket payload queue.nextSeqNum)
      tailPos := slot N (queue.tailPos + 1)
      nextSeqNum := queue.nextSeqNum + 1
      curSize := queue.curSize + 1
      pendingSendNum := queue.pendingSendNum + 1 })

def pushBatch (batch : List α) : Bool × SendQueue N α :=
  if N < batch.length + queue.curSize then (false, queue)
  else (true, batch.foldl (fun q payload ↦ (q.push payload).2) queue)

/-- The packets released, and the queue afterwards; the assertion on their number may stop it. -/
def pop (ackSeqNum : UInt32) (currentNs : UInt64) :
    Option (List (Segment α) × SendQueue N α) :=
  if queue.curSize = 0 ∨ ackSeqNum ≤ queue.headSeqNum ∨ queue.nextSeqNum < ackSeqNum then
    some ([], queue)
  else
    let popNum := (ackSeqNum - queue.headSeqNum).toNat
    if queue.curSize < popNum then none
    else
      let headPos := slot N (queue.headPos + popNum)
      let popped : SendQueue N α := { queue with
        rtt := currentNs - queue.sendTime (slot N (queue.headPos + popNum - 1))
        headPos := headPos
        curSize := queue.curSize - popNum
        headSeqNum := ackSeqNum }
      some (queue.oldest popNum,
        if queue.windowPosSeqNum < ackSeqNum then
          { popped with
            windowPos := headPos
            pendingSendNum := queue.curSize - popNum
            windowPosSeqNum := ackSeqNum }
        else popped)

/-- The copy loop of `get_window_batch` from `pos`, with `left` packets wanted. -/
def copyLoop (queue : SendQueue N α) (copyOk : ℕ → Bool) (currentNs : UInt64) :
    ℕ → ℕ → List (Segment α) → (ℕ → UInt64) → List (Segment α) × (ℕ → UInt64) × ℕ
  | 0, pos, batch, sendTime => (batch, sendTime, pos)
  | left + 1, pos, batch, sendTime =>
    if copyOk pos then
      copyLoop queue copyOk currentNs left (pos + 1)
        (batch ++ [queue.ringBuf (slot N (queue.windowPos + pos))])
        (Function.update sendTime (slot N (queue.windowPos + pos)) currentNs)
    else (batch, sendTime, pos)

/-- `copyOk pos` is the outcome of the copy at loop position `pos`. -/
def getWindowBatch (windowSize : ℕ) (copyOk : ℕ → Bool)
    (currentNs : UInt64) : List (Segment α) × SendQueue N α :=
  let windowSize := if queue.pendingSendNum < windowSize then queue.pendingSendNum else windowSize
  let (batch, sendTime, sent) := queue.copyLoop copyOk currentNs windowSize 0 [] queue.sendTime
  (batch,
    { queue with
      sendTime := sendTime
      windowPos := slot N (queue.windowPos + sent)
      pendingSendNum := queue.pendingSendNum - sent
      windowPosSeqNum := queue.windowPosSeqNum + UInt32.ofNat sent })

/-- The number of packets to be sent again, and the rewound queue. -/
def resetWindowPos : ℕ × SendQueue N α :=
  (queue.curSize - queue.pendingSendNum,
    { queue with
      windowPos := queue.headPos
      pendingSendNum := queue.curSize
      windowPosSeqNum := queue.headSeqNum })

def peekRemainingSize : ℕ := N - queue.curSize

end SendQueue

end NfvActor.Reliable
