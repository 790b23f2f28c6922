import Mathlib.Tactic
import NfvActor.Reliable.Message
import NfvActor.Reliable.SendQueueInvariant

/-!
# One end of a reliable connection

`reliable_p2p` numbers its packets and keeps them until they are acknowledged, accepts exactly the next packet
of its peer, and assembles what it accepts into messages.
-/

namespace NfvActor.Reliable

open Option (bind_eq_some_iff)

/-- The packet with its header still in front of the payload. -/
def Segment.packet (pkt : Segment Packet) : Packet where
  dataOff := pkt.payload.dataOff - pkt.header.bytes.length
  bytes := pkt.header.bytes ++ pkt.payload.bytes
  dataLen := pkt.header.bytes.length + pkt.payload.dataLen
  fits := by
    have hfits := pkt.payload.fits
    rw [List.length_append]
    omega

/-- `initial_check_times` and `next_check_times`. -/
def checkTimes : UInt64 := 5

/-- The connection is down after this many fruitless checks in a row. -/
def downThreshold : UInt64 := 5000

/-- `reliable_p2p`; `ackFrame` is the constant part of `ack_header_`. -/
structure PeerToPeer (N : ℕ) where
  sendQueue : SendQueue N Packet
  nextSeqNumToRecv : UInt32
  refCnt : ℤ
  destRtid : ℤ
  batch : List Packet
  curMsg : SingleMsg
  ackFrame : List UInt8
  outputGate : UInt16
  nextSeqNumToRecvSnapshot : UInt32
  nextCheckTime : UInt64
  lastCheckHeadSeqNum : UInt64
  consecutiveCounter : UInt64
  isConnectionUp : Bool
  errorCounter : UInt64

/-- A complete message, the packets that an acknowledgement releases, and the received packets for the
collector. -/
structure RecvOutcome where
  message : Option SingleMsg
  released : List (Segment Packet)
  discarded : List Packet

namespace PeerToPeer

variable {N : ℕ}

/-- The constructor. `sendQueue` and `curMsg` hold what memory held. -/
def init (destRtid : ℤ) (outputGate : UInt16) (ackFrame : List UInt8) (currentNs : UInt64)
    (sendQueue : SendQueue N Packet) (curMsg : SingleMsg) : PeerToPeer N where
  sendQueue := sendQueue
  nextSeqNumToRecv := 1
  refCnt := 0
  destRtid := destRtid
  batch := []
  curMsg := { curMsg with sendRuntimeId := destRtid, fsMsgBatch := [], garbage := [] }
  ackFrame := ackFrame
  outputGate := outputGate
  nextSeqNumToRecvSnapshot := 1
  nextCheckTime := currentNs + checkTimes * sendQueue.rtt
  lastCheckHeadSeqNum := sendQueue.headSeqNum.toUInt64
  consecutiveCounter := 0
  isConnectionUp := true
  errorCounter := 0

/-- After enough packets out of sequence in a row the next acknowledgement is sent again. -/
def recvOutOfSequence (p2p : PeerToPeer N) : PeerToPeer N :=
  if 16 < p2p.errorCounter + 1 then
    { p2p with
      errorCounter := 0
      nextSeqNumToRecvSnapshot := p2p.nextSeqNumToRecv - 1 }
  else
    { p2p with errorCounter := p2p.errorCounter + 1 }

/-- The bookkeeping of an accepted packet. -/
def recvInSequence (p2p : PeerToPeer N) (pkt : Segment Packet) : Option (PeerToPeer N) := do
  let accepted := { p2p with
    errorCounter := 0
    nextSeqNumToRecv := p2p.nextSeqNumToRecv + 1 }
  if p2p.batch = [] then
    let batch ← batchAdd p2p.batch (pkt.packet.adj (pkt.header.bytes.length + MessageHeader.size))
    some { accepted with
      curMsg := { p2p.curMsg with rmh := MessageHeader.ofPacket pkt.payload }
      batch }
  else
    let batch ← batchAdd p2p.batch (pkt.packet.adj pkt.header.bytes.length)
    some { accepted with batch }

/-- A complete batch is formatted; one that cannot be is thrown away. -/
def deliver (p2p : PeerToPeer N) (fuel : ℕ) : Option (RecvOutcome × PeerToPeer N) :=
  if p2p.batch.length = p2p.curMsg.rmh.msgPktNum.toNat then do
    let (flag, msg) ← p2p.curMsg.format fuel p2p.batch
    if flag then
      some (⟨some msg, [], []⟩, { p2p with batch := [], curMsg := msg })
    else
      some (⟨none, [], p2p.batch ++ msg.clean.1⟩, { p2p with batch := [], curMsg := msg.clean.2 })
  else
    some (⟨none, [], []⟩, p2p)

/-- `reliable_p2p::recv`; `fuel` bounds the formatting loop. -/
def recv (p2p : PeerToPeer N) (fuel : ℕ) (currentNs : UInt64) (pkt : Segment Packet) :
    Option (RecvOutcome × PeerToPeer N) :=
  if pkt.header.magicNum = ackMagicNum then do
    let (released, sendQueue) ← p2p.sendQueue.pop pkt.header.seqNum currentNs
    some (⟨none, released, [pkt.packet]⟩, { p2p with sendQueue })
  else if pkt.header.seqNum ≠ p2p.nextSeqNumToRecv then
    some (⟨none, [], [pkt.packet]⟩, p2p.recvOutOfSequence)
  else do
    let accepted ← p2p.recvInSequence pkt
    accepted.deliver fuel

/-- The caller's `clean` once a returned message has been processed. -/
def cleanMsg (p2p : PeerToPeer N) : List Packet × PeerToPeer N :=
  (p2p.curMsg.clean.1, { p2p with curMsg := p2p.curMsg.clean.2 })

/-- `get_ack_pkt`. The allocation is asserted to succeed. -/
def getAckPkt (p2p : PeerToPeer N) (allocOk : Bool) : Option (Option (Segment Packet) × PeerToPeer N) :=
  if p2p.nextSeqNumToRecvSnapshot = p2p.nextSeqNumToRecv then
    some (none, p2p)
  else if allocOk then
    some (some ⟨⟨p2p.ackFrame, ackMagicNum, p2p.nextSeqNumToRecv⟩, Packet.ofBytes 0 []⟩,
      { p2p with nextSeqNumToRecvSnapshot := p2p.nextSeqNumToRecv })
  else
    none

/-- `reliable_p2p::reset`; an unfinished batch is dropped without being collected. -/
def reset (p2p : PeerToPeer N) : (List (Segment Packet) × List Packet) × PeerToPeer N :=
  ((p2p.sendQueue.reset.1, p2p.curMsg.clean.1),
    { p2p with
      sendQueue := p2p.sendQueue.reset.2
      nextSeqNumToRecv := 1
      curMsg := p2p.curMsg.clean.2
      batch := [] })

/-- The connection is given up. -/
def bringDown (p2p : PeerToPeer N) : PeerToPeer N :=
  { p2p.reset.2 with
    isConnectionUp := false
    nextSeqNumToRecv := 0
    nextSeqNumToRecvSnapshot := 0 }

/-- `reliable_p2p::check`, with the credit for the front of the send list. -/
def check (p2p : PeerToPeer N) (currentNs : UInt64) : Option ℕ × PeerToPeer N :=
  if p2p.nextCheckTime < currentNs then
    let stalled := p2p.lastCheckHeadSeqNum = p2p.sendQueue.headSeqNum.toUInt64 ∧
      0 < p2p.sendQueue.curSize
    let checked : PeerToPeer N :=
      if stalled then
        let rewound := { p2p with
          sendQueue := p2p.sendQueue.resetWindowPos.2
          consecutiveCounter := p2p.consecutiveCounter + 1 }
        if rewound.consecutiveCounter = downThreshold then rewound.bringDown else rewound
      else
        { p2p with consecutiveCounter := 0 }
    (if stalled then some p2p.sendQueue.resetWindowPos.1 else none,
      { checked with
        nextCheckTime := currentNs + checkTimes * checked.sendQueue.rtt
        lastCheckHeadSeqNum := checked.sendQueue.headSeqNum.toUInt64 })
  else
    (none, p2p)

/-- `pkt_msg_offset`: the headers in front of a sub-message's data. -/
def pktMsgOffset : ℕ := 40 + MessageHeader.size + SubMessage.tagSize + 1

def pktSubMsgCuttingThresh : ℕ := 1522 - pktMsgOffset

/-- The sender's part of a message header. -/
structure Address where
  sendActorId : UInt32
  recvActorId : UInt32
  msgId : UInt32
  msgType : UInt16
deriving DecidableEq, Repr

def Address.header (address : Address) (msgPktNum : ℕ) : MessageHeader :=
  ⟨address.sendActorId, address.recvActorId, address.msgId, address.msgType, UInt16.ofNat msgPktNum⟩

/-- `create_cstruct_sub_msg`, once the packet has been allocated. -/
def createCstructSubMsg (cstruct : List UInt8) : Packet :=
  Packet.alloc (Packet.headroom + pktMsgOffset)
    (littleEndian SubMessage.tagSize SubMessage.cstruct.tag ++ cstruct)

/-- The tag and packet count before a sub-message of several packets. -/
def prependTag (kind : SubMessage) (count : ℕ) (pkt : Packet) : Option Packet := do
  let counted ← pkt.prepend [UInt8.ofNat count]
  counted.prepend (littleEndian SubMessage.tagSize kind.tag)

/-- `encode_binary_fs_sub_msg`, which asserts that there is a packet. -/
def encodeBinaryFsSubMsg : List Packet → Option (List Packet)
  | [] => none
  | first :: rest => do
    let first ← prependTag .binaryFlowState (rest.length + 1) first
    some (first :: rest)

/-- `create_packet_sub_msg`. A copy of the excess over the threshold follows; the packet keeps its length. -/
def createPacketSubMsg (pkt : Packet) (allocOk : Bool) : Option (List Packet) :=
  if pktSubMsgCuttingThresh < pkt.dataLen then
    if allocOk then do
      let supplement := Packet.alloc (Packet.headroom + pktMsgOffset)
        (pkt.data.drop pktSubMsgCuttingThresh)
      let first ← prependTag .packet 2 pkt
      some [first, supplement]
    else
      some []
  else do
    let first ← prependTag .packet 1 pkt
    some [first]

/-- The message header goes in front of the first packet. -/
def prependHeader (header : MessageHeader) : List Packet → Option (List Packet)
  | [] => none
  | first :: rest => do
    let first ← first.prepend header.bytes
    some (first :: rest)

/-- Push a run of packets for which there is room. -/
def pushAll (p2p : PeerToPeer N) (batch : List Packet) : PeerToPeer N :=
  { p2p with sendQueue := (p2p.sendQueue.pushBatch batch).2 }

/-- `reliable_send` of a structure: the number of packets pushed, zero if refused. -/
def reliableSendCstruct (p2p : PeerToPeer N) (address : Address) (cstruct : List UInt8)
    (allocOk : Bool) : Option (ℕ × PeerToPeer N) :=
  if p2p.isConnectionUp = false ∨ p2p.sendQueue.peekRemainingSize = 0 then
    some (0, p2p)
  else if allocOk then do
    let pkt ← (createCstructSubMsg cstruct).prepend (address.header 1).bytes
    some (1, { p2p with sendQueue := (p2p.sendQueue.push pkt).2 })
  else
    some (0, p2p)

/-- `reliable_send` of a batch of flow states. -/
def reliableSendBatch (p2p : PeerToPeer N) (address : Address) (batch : List Packet) :
    Option (ℕ × PeerToPeer N) :=
  if p2p.isConnectionUp = false ∨ p2p.sendQueue.peekRemainingSize < batch.length then
    some (0, p2p)
  else do
    let encoded ← encodeBinaryFsSubMsg batch
    let message ← prependHeader (address.header batch.length) encoded
    some (batch.length, p2p.pushAll message)

/-- `total_pkt_num`: what the state and the data packet will take. -/
def totalPktNum (fsStateBatch : List Packet) (dpPkt : Packet) : ℕ :=
  fsStateBatch.length + 1 + if pktSubMsgCuttingThresh < dpPkt.dataLen then 1 else 0

/-- `reliable_send` of flow states with a data packet, which ignores the state of the connection. -/
def reliableSendReplication (p2p : PeerToPeer N) (address : Address) (fsStateBatch : List Packet)
    (dpPkt : Packet) (allocOk : Bool) : Option (ℕ × PeerToPeer N) :=
  if p2p.sendQueue.peekRemainingSize < totalPktNum fsStateBatch dpPkt then
    some (0, p2p)
  else do
    let dpPktBatch ← createPacketSubMsg dpPkt allocOk
    if dpPktBatch = [] then
      some (0, p2p)
    else
      let encoded ← encodeBinaryFsSubMsg fsStateBatch
      let message ← prependHeader (address.header (fsStateBatch.length + dpPktBatch.length)) encoded
      some (fsStateBatch.length + dpPktBatch.length, (p2p.pushAll message).pushAll dpPktBatch)

/-! ## What a received packet can do -/

variable {p2p p2p' : PeerToPeer N} {fuel count : ℕ} {currentNs : UInt64} {pkt : Segment Packet}
  {outcome : RecvOutcome} {batch : List Packet} {allocOk : Bool} {address : Address}

theorem recv_ack (hmagic : pkt.header.magicNum = ackMagicNum)
    (hrecv : p2p.recv fuel currentNs pkt = some (outcome, p2p')) :
    p2p.sendQueue.pop pkt.header.seqNum currentNs = some (outcome.released, p2p'.sendQueue) ∧
      p2p' = { p2p with sendQueue := p2p'.sendQueue } := by
  rw [recv, if_pos hmagic] at hrecv
  obtain ⟨⟨released, sendQueue⟩, hpop, hsome⟩ := bind_eq_some_iff.1 hrecv
  cases hsome
  exact ⟨hpop, rfl⟩

theorem deliver_frame (hdeliver : p2p.deliver fuel = some (outcome, p2p')) :
    outcome.released = [] ∧ p2p' = { p2p with batch := p2p'.batch, curMsg := p2p'.curMsg } := by
  rw [deliver] at hdeliver
  split at hdeliver
  · obtain ⟨⟨flag, msg⟩, -, hsome⟩ := bind_eq_some_iff.1 hdeliver
    cases flag <;> cases hsome <;> exact ⟨rfl, rfl⟩
  · cases hdeliver
    exact ⟨rfl, rfl⟩

theorem recvInSequence_frame (hrecv : p2p.recvInSequence pkt = some p2p') : p2p' = { p2p with
      errorCounter := 0
      nextSeqNumToRecv := p2p.nextSeqNumToRecv + 1
      batch := p2p'.batch
      curMsg := p2p'.curMsg } := by
  rw [recvInSequence] at hrecv
  split at hrecv <;> obtain ⟨batch, -, hsome⟩ := bind_eq_some_iff.1 hrecv <;> cases hsome <;> rfl

/-- A data packet leaves all but the duplicate counter and the acknowledgement snapshot alone, or advances the
receive cursor by one. -/
theorem recv_data (hmagic : pkt.header.magicNum ≠ ackMagicNum)
    (hrecv : p2p.recv fuel currentNs pkt = some (outcome, p2p')) :
    outcome.released = [] ∧ p2p'.sendQueue = p2p.sendQueue ∧
      (p2p'.isConnectionUp = p2p.isConnectionUp ∧ p2p'.destRtid = p2p.destRtid) ∧
      (pkt.header.seqNum = p2p.nextSeqNumToRecv ∧ p2p'.nextSeqNumToRecv = p2p.nextSeqNumToRecv + 1 ∨
        pkt.header.seqNum ≠ p2p.nextSeqNumToRecv ∧ p2p'.nextSeqNumToRecv = p2p.nextSeqNumToRecv) := by
  rw [recv, if_neg hmagic] at hrecv
  split at hrecv
  next hseq =>
    cases hrecv
    unfold recvOutOfSequence
    split <;> exact ⟨rfl, rfl, ⟨rfl, rfl⟩, .inr ⟨hseq, rfl⟩⟩
  next hseq =>
    obtain ⟨accepted, haccept, hdeliver⟩ := bind_eq_some_iff.1 hrecv
    obtain ⟨hreleased, hframe⟩ := deliver_frame hdeliver
    have haccepted := recvInSequence_frame haccept
    rw [hframe, haccepted]
    exact ⟨hreleased, rfl, ⟨rfl, rfl⟩, .inl ⟨not_not.1 hseq, rfl⟩⟩

theorem recv_isConnectionUp (hrecv : p2p.recv fuel currentNs pkt = some (outcome, p2p')) :
    p2p'.isConnectionUp = p2p.isConnectionUp := by
  by_cases hmagic : pkt.header.magicNum = ackMagicNum
  · rw [(recv_ack hmagic hrecv).2]
  · exact (recv_data hmagic hrecv).2.2.1.1

/-- A check that leaves the connection up at most rewinds the window. -/
theorem check_of_up (hup : (p2p.check currentNs).2.isConnectionUp = true) : p2p.isConnectionUp = true ∧
      (p2p.check currentNs).2.nextSeqNumToRecv = p2p.nextSeqNumToRecv ∧
      ((p2p.check currentNs).2.sendQueue = p2p.sendQueue ∨
        (p2p.check currentNs).2.sendQueue = p2p.sendQueue.resetWindowPos.2) := by
  revert hup
  unfold check
  split
  · dsimp only
    split
    · split
      · intro hup
        exact absurd hup Bool.false_ne_true
      · exact fun hup ↦ ⟨hup, rfl, .inr rfl⟩
    · exact fun hup ↦ ⟨hup, rfl, .inl rfl⟩
  · exact fun hup ↦ ⟨hup, rfl, .inl rfl⟩

/-- The credit of a check is what it has made pending; without credit no counter of the queue has changed. -/
theorem check_spec (hN : ValidSize N) (hwf : p2p.sendQueue.WellFormed) (currentNs : UInt64) :
    (p2p.check currentNs).2.sendQueue.WellFormed ∧ (p2p.check currentNs).2.destRtid = p2p.destRtid ∧
      ((p2p.check currentNs).1 = none → (p2p.check currentNs).2.isConnectionUp = p2p.isConnectionUp ∧
        (p2p.check currentNs).2.sendQueue.pendingSendNum = p2p.sendQueue.pendingSendNum) ∧
      ∀ num, (p2p.check currentNs).1 = some num → (p2p.check currentNs).2.isConnectionUp = true →
        p2p.isConnectionUp = true ∧
        (p2p.check currentNs).2.sendQueue.pendingSendNum = p2p.sendQueue.pendingSendNum + num := by
  have hpendingLe := hwf.pending_le
  unfold check
  split
  · dsimp only
    split
    · refine ⟨?_, ?_, by simp, ?_⟩
      · split
        · exact (SendQueue.reset_spec hN _).1
        · exact (SendQueue.resetWindowPos_spec hwf).1
      · split <;> rfl
      · intro num hnum
        cases hnum
        split
        · intro hup
          exact absurd hup Bool.false_ne_true
        · intro hup
          refine ⟨hup, ?_⟩
          simp only [SendQueue.resetWindowPos]
          omega
    · exact ⟨hwf, rfl, fun _ ↦ ⟨rfl, rfl⟩, by simp⟩
  · exact ⟨hwf, rfl, fun _ ↦ ⟨rfl, rfl⟩, by simp⟩

/-- Receiving never makes more packets pending. -/
theorem recv_counters (hN : ValidSize N) (hwf : p2p.sendQueue.WellFormed)
    (hrecv : p2p.recv fuel currentNs pkt = some (outcome, p2p')) :
    p2p'.sendQueue.WellFormed ∧ p2p'.destRtid = p2p.destRtid ∧
      p2p'.sendQueue.pendingSendNum ≤ p2p.sendQueue.pendingSendNum := by
  by_cases hmagic : pkt.header.magicNum = ackMagicNum
  · obtain ⟨hpop, hframe⟩ := recv_ack hmagic hrecv
    obtain ⟨hwf', hpending⟩ := hwf.pop hN hpop
    exact ⟨hwf', by rw [hframe], hpending⟩
  · obtain ⟨-, hqueue, ⟨-, hrtid⟩, -⟩ := recv_data hmagic hrecv
    exact ⟨hqueue ▸ hwf, hrtid, hqueue ▸ le_rfl⟩

/-- The queue after pushing a run of packets that fits. -/
structure Pushed (p2p : PeerToPeer N) (count : ℕ) (p2p' : PeerToPeer N) : Prop where
  fits : count + p2p.sendQueue.curSize ≤ N
  queue : ∃ payloads : List Packet, payloads.length = count ∧
    p2p' = { p2p with sendQueue := payloads.foldl (fun q payload ↦ (q.push payload).2) p2p.sendQueue }

theorem Pushed.refused (hwf : p2p.sendQueue.WellFormed) : Pushed p2p 0 p2p where
  fits := by
    rw [Nat.zero_add]
    exact hwf.size_le
  queue := ⟨[], rfl, rfl⟩

theorem pushed_pushAll (hfits : batch.length + p2p.sendQueue.curSize ≤ N) :
    Pushed p2p batch.length (p2p.pushAll batch) where
  fits := hfits
  queue := ⟨batch, rfl, by rw [pushAll, SendQueue.pushBatch, if_neg (not_lt.2 hfits)]⟩

theorem pushAll_append (hN : ValidSize N) (hwf : p2p.sendQueue.WellFormed) {first second : List Packet}
    (hfits : first.length + second.length + p2p.sendQueue.curSize ≤ N) :
    p2p.pushAll (first ++ second) = (p2p.pushAll first).pushAll second := by
  obtain ⟨-, -, hsize, -⟩ := SendQueue.pushBatch_spec hN hwf first (by omega)
  have hsecond : ¬ N < second.length + (p2p.pushAll first).sendQueue.curSize := by
    rw [pushAll, hsize]
    omega
  have hboth : ¬ N < (first ++ second).length + p2p.sendQueue.curSize := by
    rw [List.length_append]
    omega
  rw [pushAll, SendQueue.pushBatch, if_neg hboth, List.foldl_append, pushAll, SendQueue.pushBatch,
    if_neg hsecond, pushAll, SendQueue.pushBatch, if_neg (by omega)]

theorem Pushed.pushAll (hN : ValidSize N) (hwf : p2p.sendQueue.WellFormed) {first second : List Packet}
    (hfits : first.length + second.length + p2p.sendQueue.curSize ≤ N) :
    Pushed p2p (first.length + second.length) ((p2p.pushAll first).pushAll second) := by
  rw [← pushAll_append hN hwf hfits, ← List.length_append]
  exact pushed_pushAll (by rw [List.length_append]; exact hfits)

theorem length_encodeBinaryFsSubMsg {encoded : List Packet}
    (hencode : encodeBinaryFsSubMsg batch = some encoded) : encoded.length = batch.length := by
  cases batch with
  | nil => cases hencode
  | cons =>
    obtain ⟨first', -, hsome⟩ := bind_eq_some_iff.1 hencode
    cases hsome
    rfl

theorem length_prependHeader {header : MessageHeader} {message : List Packet}
    (hprepend : prependHeader header batch = some message) : message.length = batch.length := by
  cases batch with
  | nil => cases hprepend
  | cons =>
    obtain ⟨first', -, hsome⟩ := bind_eq_some_iff.1 hprepend
    cases hsome
    rfl

/-- A data packet takes one packet, or two over the threshold. -/
theorem length_createPacketSubMsg {pkt : Packet} (hcreate : createPacketSubMsg pkt allocOk = some batch) :
    batch.length ≤ 1 + if pktSubMsgCuttingThresh < pkt.dataLen then 1 else 0 := by
  unfold createPacketSubMsg at hcreate
  split at hcreate
  next hlong =>
    rw [if_pos hlong]
    split at hcreate
    · obtain ⟨first, -, hsome⟩ := bind_eq_some_iff.1 hcreate
      cases hsome
      exact le_rfl
    · cases hcreate
      exact Nat.zero_le _
  next =>
    obtain ⟨first, -, hsome⟩ := bind_eq_some_iff.1 hcreate
    cases hsome
    exact Nat.le_add_right 1 _

theorem pushed_reliableSendCstruct {cstruct : List UInt8} (hwf : p2p.sendQueue.WellFormed)
    (hsend : p2p.reliableSendCstruct address cstruct allocOk = some (count, p2p')) :
    Pushed p2p count p2p' := by
  unfold reliableSendCstruct at hsend
  split at hsend
  · cases hsend
    exact .refused hwf
  next hroom =>
    split at hsend
    · obtain ⟨pkt, -, hsome⟩ := bind_eq_some_iff.1 hsend
      cases hsome
      have hremaining : p2p.sendQueue.peekRemainingSize ≠ 0 := fun h ↦ hroom (.inr h)
      rw [SendQueue.peekRemainingSize] at hremaining
      exact ⟨by omega, [pkt], rfl, rfl⟩
    · cases hsend
      exact .refused hwf

theorem pushed_reliableSendBatch (hwf : p2p.sendQueue.WellFormed)
    (hsend : p2p.reliableSendBatch address batch = some (count, p2p')) : Pushed p2p count p2p' := by
  unfold reliableSendBatch at hsend
  split at hsend
  · cases hsend
    exact .refused hwf
  next hroom =>
    obtain ⟨encoded, hencode, hrest⟩ := bind_eq_some_iff.1 hsend
    obtain ⟨message, hprepend, hsome⟩ := bind_eq_some_iff.1 hrest
    cases hsome
    have hlength : message.length = batch.length :=
      (length_prependHeader hprepend).trans (length_encodeBinaryFsSubMsg hencode)
    have hremaining : ¬ p2p.sendQueue.peekRemainingSize < batch.length := fun h ↦ hroom (.inr h)
    have hsize := hwf.size_le
    rw [SendQueue.peekRemainingSize] at hremaining
    rw [← hlength]
    exact pushed_pushAll (by omega)

theorem pushed_reliableSendReplication (hN : ValidSize N) {fsStateBatch : List Packet} {dpPkt : Packet}
    (hwf : p2p.sendQueue.WellFormed)
    (hsend : p2p.reliableSendReplication address fsStateBatch dpPkt allocOk = some (count, p2p')) :
    Pushed p2p count p2p' := by
  unfold reliableSendReplication at hsend
  split at hsend
  · cases hsend
    exact .refused hwf
  next hroom =>
    obtain ⟨dpPktBatch, hcreate, hrest⟩ := bind_eq_some_iff.1 hsend
    split at hrest
    · cases hrest
      exact .refused hwf
    · obtain ⟨encoded, hencode, hrest⟩ := bind_eq_some_iff.1 hrest
      obtain ⟨message, hprepend, hsome⟩ := bind_eq_some_iff.1 hrest
      cases hsome
      have hlength : message.length = fsStateBatch.length :=
        (length_prependHeader hprepend).trans (length_encodeBinaryFsSubMsg hencode)
      have hcut := length_createPacketSubMsg hcreate
      have hsize := hwf.size_le
      rw [SendQueue.peekRemainingSize, totalPktNum, ← hlength] at hroom
      rw [← hlength]
      exact .pushAll hN hwf (by omega)

/-- Pushing raises both counters of the queue by the number of packets. -/
theorem Pushed.counters (hN : ValidSize N) (hwf : p2p.sendQueue.WellFormed) (hpushed : Pushed p2p count p2p') :
    p2p'.sendQueue.WellFormed ∧ p2p'.sendQueue.pendingSendNum = p2p.sendQueue.pendingSendNum + count ∧
      p2p'.isConnectionUp = p2p.isConnectionUp ∧ p2p'.destRtid = p2p.destRtid := by
  obtain ⟨payloads, rfl, rfl⟩ := hpushed.queue
  have hfits := hpushed.fits
  obtain ⟨-, hwf', -, hpending⟩ := SendQueue.pushBatch_spec hN hwf payloads hfits
  rw [SendQueue.pushBatch, if_neg (not_lt.2 hfits)] at hwf' hpending
  exact ⟨hwf', hpending, rfl, rfl⟩

end PeerToPeer

end NfvActor.Reliable
