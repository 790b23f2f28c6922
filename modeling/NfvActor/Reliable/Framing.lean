import Mathlib.Tactic
import NfvActor.Foundation.Transition
import NfvActor.Reliable.PeerToPeer

/-!
# Messages survive framing

`reliable_send` puts headers in front of the packets of a message; `recv` strips them, collects the packets and
takes the message apart. Handed over in order, and with every returned message cleaned before the next packet,
the messages come out as they went in.
-/

namespace NfvActor.Reliable

open NfvActor.Foundation
open Option (bind_eq_some_iff map_eq_some_iff)

/-- The value of a little-endian field. -/
def fromLittleEndian (bytes : List UInt8) : ℕ :=
  bytes.foldr (fun byte rest ↦ byte.toNat + 256 * rest) 0

@[simp]
theorem length_littleEndian (width value : ℕ) : (littleEndian width value).length = width := by
  induction width generalizing value with
  | zero => rfl
  | succ _ ih => simp [littleEndian, ih]

theorem fromLittleEndian_littleEndian (width value : ℕ) :
    fromLittleEndian (littleEndian width value) = value % 256 ^ width := by
  induction width generalizing value with
  | zero => simp [littleEndian, fromLittleEndian, Nat.mod_one]
  | succ _ ih =>
    have hrest := ih (value / 256)
    simp only [littleEndian, fromLittleEndian, List.foldr_cons] at hrest ⊢
    rw [hrest, pow_succ', Nat.mod_mul]
    simp

/-- Reading a field that stands between other bytes. -/
theorem Packet.read_eq (pkt : Packet) {before field after : List UInt8}
    (hbytes : pkt.bytes = before ++ field ++ after) :
    pkt.read before.length field.length = fromLittleEndian field := by
  rw [Packet.read, hbytes, List.append_assoc, List.drop_left, List.take_left]
  rfl

namespace MessageHeader

variable (header : MessageHeader)

@[simp]
theorem length_bytes : header.bytes.length = size := by
  simp [bytes, size]

/-- A header is read back from the packet it starts. -/
theorem ofPacket_eq {pkt : Packet} {rest : List UInt8}
    (hbytes : pkt.bytes = header.bytes ++ rest) : ofPacket pkt = header := by
  have hfield : ∀ (before after : List UInt8) (width value offset : ℕ),
      pkt.bytes = before ++ littleEndian width value ++ after → before.length = offset →
        pkt.read offset width = value % 256 ^ width := by
    intro before after width value offset hsplit hoffset
    have hread := pkt.read_eq hsplit
    rwa [length_littleEndian, hoffset, fromLittleEndian_littleEndian] at hread
  have hsend := hfield [] _ 4 header.sendActorId.toNat 0
    (by rw [hbytes, bytes]; simp only [List.append_assoc, List.nil_append]; rfl) rfl
  have hrecv := hfield (littleEndian 4 header.sendActorId.toNat) _ 4 header.recvActorId.toNat 4
    (by rw [hbytes, bytes]; simp only [List.append_assoc]; rfl) (by simp)
  have hid := hfield (littleEndian 4 header.sendActorId.toNat ++ littleEndian 4 header.recvActorId.toNat) _
    4 header.msgId.toNat 8 (by rw [hbytes, bytes]; simp only [List.append_assoc]; rfl) (by simp)
  have htype := hfield (littleEndian 4 header.sendActorId.toNat ++
    littleEndian 4 header.recvActorId.toNat ++ littleEndian 4 header.msgId.toNat) _
    2 header.msgType.toNat 12 (by rw [hbytes, bytes]; simp only [List.append_assoc]; rfl) (by simp)
  have hnum := hfield (littleEndian 4 header.sendActorId.toNat ++
    littleEndian 4 header.recvActorId.toNat ++ littleEndian 4 header.msgId.toNat ++
    littleEndian 2 header.msgType.toNat) _ 2 header.msgPktNum.toNat 14
    (by rw [hbytes, bytes]) (by simp)
  rw [Nat.mod_eq_of_lt (by simpa using UInt32.toNat_lt _)] at hsend hrecv hid
  rw [Nat.mod_eq_of_lt (by simpa using UInt16.toNat_lt _)] at htype hnum
  rw [ofPacket, hsend, hrecv, hid, htype, hnum]
  simp

end MessageHeader

namespace SubMessage

theorem ofPacket_eq (kind : SubMessage) {pkt : Packet} {rest : List UInt8}
    (hbytes : pkt.bytes = littleEndian tagSize kind.tag ++ rest) : ofPacket pkt = some kind := by
  rw [ofPacket_eq_some_iff]
  have hsplit : pkt.bytes = [] ++ littleEndian tagSize kind.tag ++ rest := by
    rw [List.nil_append]
    exact hbytes
  have hread := pkt.read_eq hsplit
  rw [length_littleEndian, fromLittleEndian_littleEndian] at hread
  rw [List.length_nil] at hread
  rw [hread]
  cases kind <;> decide

theorem count_eq (kind : SubMessage) {pkt : Packet} {count : ℕ} {rest : List UInt8} (hcount : count < 256)
    (hbytes : pkt.bytes = littleEndian tagSize kind.tag ++ [UInt8.ofNat count] ++ rest) :
    pkt.read tagSize 1 = count := by
  have hread := pkt.read_eq hbytes
  rw [length_littleEndian] at hread
  rw [List.length_singleton] at hread
  rw [hread]
  simp [fromLittleEndian, Nat.mod_eq_of_lt hcount]

end SubMessage

namespace Packet

variable {pkt : Packet} {front : List UInt8}

@[simp]
theorem length_data (pkt : Packet) : pkt.data.length = pkt.dataLen := by
  rw [data, List.length_take, min_eq_left pkt.fits]

theorem bytes_of_data {rest : List UInt8} (h : pkt.data = front ++ rest) :
    pkt.bytes = front ++ (rest ++ pkt.bytes.drop pkt.dataLen) := by
  rw [← List.append_assoc, ← h]
  exact (List.take_append_drop _ _).symm

theorem data_prepend {pkt' : Packet} (h : pkt.prepend front = some pkt') : pkt'.data = front ++ pkt.data := by
  unfold prepend at h
  split at h <;> cases h
  exact List.take_length_add_append _

theorem exists_prepend (h : front.length ≤ pkt.dataOff) :
    ∃ pkt', pkt.prepend front = some pkt' ∧ pkt'.dataOff = pkt.dataOff - front.length := by
  rw [prepend, if_neg (not_lt.2 h)]
  exact ⟨_, rfl, rfl⟩

/-- Stripping the front of a packet leaves what follows it. -/
theorem data_adj {rest : List UInt8} (h : pkt.data = front ++ rest) : (pkt.adj front.length).data = rest := by
  have hlen : pkt.dataLen = front.length + rest.length := by
    rw [← pkt.length_data, h, List.length_append]
  rw [adj, dif_neg (by omega)]
  change (pkt.bytes.drop front.length).take (pkt.dataLen - front.length) = rest
  rw [bytes_of_data h, List.drop_left, hlen, Nat.add_sub_cancel_left, List.take_left]

theorem data_append {whole : Packet} {back : List UInt8} (h : pkt.append back = some whole) :
    whole.data = pkt.data ++ back := by
  unfold append at h
  split at h <;> cases h
  have hlength : (pkt.bytes.take pkt.dataLen ++ back).length = pkt.dataLen + back.length := by
    rw [List.length_append, List.length_take, min_eq_left pkt.fits]
  exact List.take_left' hlength

theorem data_alloc (dataOff : ℕ) (content : List UInt8) : (alloc dataOff content).data = content :=
  List.take_left

end Packet

theorem Segment.data_packet (pkt : Segment Packet) :
    pkt.packet.data = pkt.header.bytes ++ pkt.payload.data :=
  List.take_length_add_append _

/-- What `recv` leaves of the first packet of a message. -/
theorem Segment.data_adj_first (pkt : Segment Packet) {header : MessageHeader} {rest : List UInt8}
    (h : pkt.payload.data = header.bytes ++ rest) :
    (pkt.packet.adj (pkt.header.bytes.length + MessageHeader.size)).data = rest := by
  have hsize : pkt.header.bytes.length + MessageHeader.size = (pkt.header.bytes ++ header.bytes).length := by
    rw [List.length_append, MessageHeader.length_bytes]
  rw [hsize]
  exact Packet.data_adj (by rw [pkt.data_packet, h, List.append_assoc])

namespace PeerToPeer

variable {N : ℕ} {header : MessageHeader} {bytes : List UInt8} {others : List Packet}

/-- What two overloads of `reliable_send` send: at most `kMaxBurst` packets, with room for the headers. -/
inductive Request
  | cstruct (address : Address) (cstruct : List UInt8)
  | batch (address : Address) (batch : List Packet) (hburst : batch.length ≤ kMaxBurst)
      (hheadroom : ∀ pkt ∈ batch, pktMsgOffset ≤ pkt.dataOff)

namespace Request

/-- The packets that a request puts into the send queue. -/
def encode : Request → Option (List Packet)
  | cstruct address bytes =>
    ((createCstructSubMsg bytes).prepend (address.header 1).bytes).map fun pkt ↦ [pkt]
  | batch address pkts _ _ =>
    (encodeBinaryFsSubMsg pkts).bind (prependHeader (address.header pkts.length))

/-- A received message is what was asked for. -/
def Renders : Request → SingleMsg → Prop
  | cstruct address bytes, msg =>
    msg.rmh = address.header 1 ∧ ∃ pkt, msg.cstructPkt = some pkt ∧ pkt.data = bytes
  | batch address pkts _ _, msg =>
    msg.rmh = address.header pkts.length ∧ msg.fsMsgBatch.map Packet.data = pkts.map Packet.data

end Request

def reliableSend (p2p : PeerToPeer N) (allocOk : Bool) : Request → Option (ℕ × PeerToPeer N)
  | .cstruct address bytes => p2p.reliableSendCstruct address bytes allocOk
  | .batch address pkts _ _ => p2p.reliableSendBatch address pkts

/-- `recv`, and `clean` on the message it returns. -/
def receive (p2p : PeerToPeer N) (fuel : ℕ) (currentNs : UInt64) (pkt : Segment Packet) :
    Option (Option SingleMsg × PeerToPeer N) :=
  (p2p.recv fuel currentNs pkt).map fun (outcome, p2p) ↦
    (outcome.message, if outcome.message.isSome then p2p.cleanMsg.2 else p2p)

/-- The answers of `recv` to packets with their times of arrival. -/
def receiveAll (fuel : ℕ) : PeerToPeer N → List (Segment Packet × UInt64) →
    Option (List (Option SingleMsg) × PeerToPeer N)
  | p2p, [] => some ([], p2p)
  | p2p, (pkt, currentNs) :: rest =>
    (p2p.receive fuel currentNs pkt).bind fun (answer, p2p) ↦
      (receiveAll fuel p2p rest).map fun (answers, p2p) ↦ (answer :: answers, p2p)

variable {fuel : ℕ} {p2p accepted : PeerToPeer N} {seqNum : UInt32} {pkt : Segment Packet}
  {rest : List UInt8} {msg : SingleMsg} {arrivals : List (Segment Packet × UInt64)}

theorem receiveAll_append {p2p' p2p'' : PeerToPeer N} {first second : List (Segment Packet × UInt64)}
    {answers answers' : List (Option SingleMsg)} (hfirst : receiveAll fuel p2p first = some (answers, p2p'))
    (hsecond : receiveAll fuel p2p' second = some (answers', p2p'')) :
    receiveAll fuel p2p (first ++ second) = some (answers ++ answers', p2p'') := by
  induction first generalizing p2p answers with
  | nil =>
    cases hfirst
    exact hsecond
  | cons _ rest ih =>
    obtain ⟨⟨answer, mid⟩, hreceive, hrest⟩ := bind_eq_some_iff.1 hfirst
    obtain ⟨⟨answers'', last⟩, htail, heq⟩ := map_eq_some_iff.1 hrest
    cases heq
    rw [List.cons_append, receiveAll, hreceive]
    change (receiveAll fuel mid (rest ++ second)).map _ = _
    rw [ih htail]
    rfl

/-! ## Receiving a message -/

/-- Data packets that carry consecutive numbers from the given one on. -/
def InSequence : UInt32 → List (Segment Packet) → Prop
  | _, [] => True
  | seqNum, pkt :: rest =>
    pkt.header.magicNum = msgMagicNum ∧ pkt.header.seqNum = seqNum ∧ InSequence (seqNum + 1) rest

theorem add_one_add_ofNat (base : UInt32) (count : ℕ) :
    base + 1 + UInt32.ofNat count = base + UInt32.ofNat (count + 1) := by
  rw [Nat.add_comm count 1, UInt32.ofNat_add, ← UInt32.add_assoc]
  rfl

theorem inSequence_append {first second : List (Segment Packet)} : InSequence seqNum (first ++ second) ↔
      InSequence seqNum first ∧ InSequence (seqNum + UInt32.ofNat first.length) second := by
  induction first generalizing seqNum with
  | nil => simp [InSequence]
  | cons _ _ ih =>
    rw [List.cons_append, InSequence, InSequence, ih, List.length_cons, ← add_one_add_ofNat]
    tauto

/-- Between two messages: nothing is collected, and the next packet has this number. -/
structure Idle (p2p : PeerToPeer N) (seqNum : UInt32) : Prop where
  batch : p2p.batch = []
  fsMsgBatch : p2p.curMsg.fsMsgBatch = []
  garbage : p2p.curMsg.garbage = []
  next : p2p.nextSeqNumToRecv = seqNum

/-- A packet that does not complete the message is answered with null. -/
theorem receiveAll_more {currentNs : UInt64} {rest : List (Segment Packet × UInt64)}
    (hmagic : pkt.header.magicNum = msgMagicNum) (hseq : pkt.header.seqNum = p2p.nextSeqNumToRecv)
    (haccept : p2p.recvInSequence pkt = some accepted)
    (hcount : accepted.batch.length ≠ accepted.curMsg.rmh.msgPktNum.toNat) :
    receiveAll fuel p2p ((pkt, currentNs) :: rest) =
      (receiveAll fuel accepted rest).map fun (answers, p2p) ↦ (none :: answers, p2p) := by
  have hdata : pkt.header.magicNum ≠ ackMagicNum := by
    rw [hmagic]
    decide
  have hreceive : p2p.receive fuel currentNs pkt = some (none, accepted) := by
    rw [receive, recv, if_neg hdata, if_neg (not_not.2 hseq), haccept]
    change (accepted.deliver fuel).map _ = _
    rw [deliver, if_neg hcount]
    rfl
  rw [receiveAll, hreceive]
  rfl

/-- The answer to the last packet of a message, from what the formatting loop says. -/
def completed (answers : ℕ) (accepted : PeerToPeer N) (formatted : Option (Bool × SingleMsg)) :
    Option (List (Option SingleMsg) × PeerToPeer N) :=
  formatted.map fun (flag, msg) ↦
    (List.replicate answers none ++ [if flag then some msg else none],
      { accepted with batch := [], curMsg := msg.clean.2 })

theorem completed_succ {answers : ℕ} {formatted : Option (Bool × SingleMsg)} :
    ((completed answers accepted formatted).map fun (answers, p2p) ↦ (none :: answers, p2p)) =
      completed (answers + 1) accepted formatted := by
  rw [completed, completed, Option.map_map]
  rfl

/-- The packet that completes a message is answered with it, or with null if it is malformed. -/
theorem receiveAll_last (fuel : ℕ) (currentNs : UInt64) (hmagic : pkt.header.magicNum = msgMagicNum)
    (hseq : pkt.header.seqNum = p2p.nextSeqNumToRecv) (haccept : p2p.recvInSequence pkt = some accepted)
    (hcount : accepted.batch.length = accepted.curMsg.rmh.msgPktNum.toNat) :
    receiveAll fuel p2p [(pkt, currentNs)] =
      completed 0 accepted (accepted.curMsg.format fuel accepted.batch) := by
  have hdata : pkt.header.magicNum ≠ ackMagicNum := by
    rw [hmagic]
    decide
  have hrecv : p2p.recv fuel currentNs pkt = accepted.deliver fuel := by
    rw [recv, if_neg hdata, if_neg (not_not.2 hseq), haccept]
    rfl
  rw [receiveAll, receive, hrecv, deliver, if_pos hcount]
  rcases accepted.curMsg.format fuel accepted.batch with _ | ⟨_ | _, msg⟩
  · rfl
  · rfl
  · rfl

/-- What `recv` strips off a packet that does not start a message. -/
def strip (pkt : Segment Packet) : Packet := pkt.packet.adj pkt.header.bytes.length

theorem data_strip (pkt : Segment Packet) : (strip pkt).data = pkt.payload.data :=
  Packet.data_adj pkt.data_packet

theorem map_data_strip (arrivals : List (Segment Packet × UInt64)) :
    (arrivals.map fun arrival ↦ strip arrival.1).map Packet.data =
      arrivals.map fun arrival ↦ arrival.1.payload.data := by
  rw [List.map_map]
  exact List.map_congr_left fun arrival _ ↦ data_strip arrival.1

theorem recvInSequence_more (pkt : Segment Packet) (hbatch : p2p.batch ≠ [])
    (hroom : p2p.batch.length < kMaxBurst) :
    ∃ accepted, p2p.recvInSequence pkt = some accepted ∧ accepted.batch = p2p.batch ++ [strip pkt] ∧
      accepted.curMsg = p2p.curMsg ∧ accepted.nextSeqNumToRecv = p2p.nextSeqNumToRecv + 1 := by
  have hadd : batchAdd p2p.batch (strip pkt) = some (p2p.batch ++ [strip pkt]) := by
    rw [batchAdd, if_pos hroom]
  refine ⟨{ p2p with
    errorCounter := 0
    nextSeqNumToRecv := p2p.nextSeqNumToRecv + 1
    batch := p2p.batch ++ [strip pkt] }, ?_, rfl, rfl, rfl⟩
  rw [recvInSequence, if_neg hbatch]
  change (batchAdd p2p.batch (strip pkt)).bind _ = _
  rw [hadd]
  rfl

theorem recvInSequence_first (hidle : p2p.Idle seqNum) (hpayload : pkt.payload.data = header.bytes ++ bytes) :
    ∃ accepted, p2p.recvInSequence pkt = some accepted ∧
      accepted.batch = [pkt.packet.adj (pkt.header.bytes.length + MessageHeader.size)] ∧
      accepted.curMsg = { p2p.curMsg with rmh := header } ∧ accepted.nextSeqNumToRecv = seqNum + 1 := by
  refine ⟨{ p2p with
    errorCounter := 0
    nextSeqNumToRecv := p2p.nextSeqNumToRecv + 1
    curMsg := { p2p.curMsg with rmh := header }
    batch := [pkt.packet.adj (pkt.header.bytes.length + MessageHeader.size)] }, ?_, rfl, rfl, ?_⟩
  · rw [recvInSequence, if_pos hidle.batch, MessageHeader.ofPacket_eq header (Packet.bytes_of_data hpayload),
      hidle.batch]
    rfl
  · rw [← hidle.next]

/-- The packets after the first are collected until the message is complete. -/
theorem receiveAll_rest (fuel : ℕ) (rest : List (Segment Packet × UInt64)) (hrest : rest ≠ [])
    (hbatch : p2p.batch ≠ []) (hcount : p2p.batch.length + rest.length = p2p.curMsg.rmh.msgPktNum.toNat)
    (hburst : p2p.batch.length + rest.length ≤ kMaxBurst)
    (hseq : InSequence p2p.nextSeqNumToRecv (rest.map Prod.fst)) :
    ∃ accepted : PeerToPeer N, accepted.nextSeqNumToRecv = p2p.nextSeqNumToRecv + UInt32.ofNat rest.length ∧
      receiveAll fuel p2p rest = completed (rest.length - 1) accepted
        (p2p.curMsg.format fuel (p2p.batch ++ rest.map fun arrival ↦ strip arrival.1)) := by
  induction rest generalizing p2p with
  | nil => exact absurd rfl hrest
  | cons arrival rest ih =>
    obtain ⟨pkt, currentNs⟩ := arrival
    rw [List.length_cons] at hcount hburst
    obtain ⟨hmagic, hnum, hseq⟩ := hseq
    obtain ⟨accepted, haccept, hbatch', hmsg, hnext⟩ := recvInSequence_more pkt hbatch (by omega)
    have hlength : accepted.batch.length = p2p.batch.length + 1 := by
      rw [hbatch', List.length_append, List.length_singleton]
    cases rest with
    | nil =>
      refine ⟨accepted, hnext, ?_⟩
      rw [receiveAll_last fuel currentNs hmagic hnum haccept (by rw [hlength, hmsg]; exact hcount), hmsg,
        hbatch']
      rfl
    | cons =>
      have hmore : accepted.batch.length ≠ accepted.curMsg.rmh.msgPktNum.toNat := by
        rw [hlength, hmsg, ← hcount, List.length_cons]
        omega
      obtain ⟨last, hlast, hall⟩ := ih (by simp) (by rw [hbatch']; simp)
        (by rw [hlength, hmsg]; omega) (by rw [hlength]; omega) (by rw [hnext]; exact hseq)
      refine ⟨last, ?_, ?_⟩
      · rw [hlast, hnext, add_one_add_ofNat]
        rfl
      · rw [receiveAll_more hmagic hnum haccept hmore, hall, hmsg, hbatch', List.append_assoc]
        exact completed_succ

/-- A message whose first packet carries its header is returned with its last packet. -/
theorem receiveAll_message (fuel : ℕ) (hidle : p2p.Idle seqNum) {first : Segment Packet × UInt64}
    {rest : List (Segment Packet × UInt64)} (hfirst : first.1.payload.data = header.bytes ++ bytes)
    (hcount : rest.length + 1 = header.msgPktNum.toNat) (hburst : rest.length + 1 ≤ kMaxBurst)
    (hseq : InSequence seqNum ((first :: rest).map Prod.fst)) :
    ∃ accepted : PeerToPeer N, accepted.nextSeqNumToRecv = seqNum + UInt32.ofNat (rest.length + 1) ∧
      receiveAll fuel p2p (first :: rest) = completed rest.length accepted
        (SingleMsg.format { p2p.curMsg with rmh := header } fuel
          (first.1.packet.adj (first.1.header.bytes.length + MessageHeader.size) ::
            rest.map fun arrival ↦ strip arrival.1)) := by
  obtain ⟨pkt, currentNs⟩ := first
  obtain ⟨hmagic, hnum, hseq⟩ := hseq
  have hseqNum : pkt.header.seqNum = p2p.nextSeqNumToRecv := hnum.trans hidle.next.symm
  obtain ⟨accepted, haccept, hbatch, hmsg, hnext⟩ := recvInSequence_first hidle hfirst
  have hlength : accepted.batch.length = 1 := by
    rw [hbatch, List.length_singleton]
  cases rest with
  | nil =>
    refine ⟨accepted, hnext, ?_⟩
    rw [receiveAll_last fuel currentNs hmagic hseqNum haccept (by rw [hlength, hmsg]; exact hcount), hmsg,
      hbatch]
    rfl
  | cons next others =>
    have hmore : accepted.batch.length ≠ accepted.curMsg.rmh.msgPktNum.toNat := by
      rw [hlength, hmsg, ← hcount, List.length_cons]
      omega
    obtain ⟨last, hlast, hall⟩ := receiveAll_rest fuel (next :: others) (by simp)
      (by rw [hbatch]; simp) (by rw [hlength, hmsg, Nat.add_comm]; exact hcount)
      (by rw [hlength, Nat.add_comm]; exact hburst) (by rw [hnext]; exact hseq)
    refine ⟨last, ?_, ?_⟩
    · rw [hlast, hnext, add_one_add_ofNat]
    · rw [receiveAll_more hmagic hseqNum haccept hmore, hall, hmsg, hbatch]
      exact completed_succ

theorem addFlowState_eq (batch behind : List Packet) (msg : SingleMsg)
    (hfs : msg.fsMsgBatch.length + batch.length ≤ kMaxBurst)
    (hgarbage : msg.garbage.length + batch.length ≤ kMaxBurst) :
    msg.addFlowState batch.length (batch ++ behind) = some { msg with
      fsMsgBatch := msg.fsMsgBatch ++ batch
      garbage := msg.garbage ++ batch } := by
  induction batch generalizing msg with
  | nil => simp [SingleMsg.addFlowState]
  | cons pkt rest ih =>
    rw [List.length_cons] at hfs hgarbage
    rw [List.length_cons, List.cons_append, SingleMsg.addFlowState, batchAdd, if_pos (by omega), batchAdd,
      if_pos (by omega)]
    change SingleMsg.addFlowState { msg with
      fsMsgBatch := msg.fsMsgBatch ++ [pkt]
      garbage := msg.garbage ++ [pkt] } rest.length (rest ++ behind) = _
    rw [ih _ (by rw [List.length_append, List.length_singleton]; omega)
      (by rw [List.length_append, List.length_singleton]; omega)]
    simp only [List.append_assoc, List.singleton_append]

/-- The tag of a sub-message with its count. -/
def tagged (kind : SubMessage) (count : ℕ) : List UInt8 :=
  littleEndian SubMessage.tagSize kind.tag ++ [UInt8.ofNat count]

theorem length_tagged (kind : SubMessage) (count : ℕ) :
    (tagged kind count).length = SubMessage.tagSize + 1 := by
  rw [tagged, List.length_append, length_littleEndian, List.length_singleton]

theorem tagged_eq {pkt : Packet} {kind : SubMessage} {count : ℕ} (hcount : count < 256)
    (h : pkt.data = tagged kind count ++ rest) :
    SubMessage.ofPacket pkt = some kind ∧ pkt.read SubMessage.tagSize 1 = count ∧
      (pkt.adj (SubMessage.tagSize + 1)).data = rest := by
  have hbytes := Packet.bytes_of_data h
  refine ⟨?_, SubMessage.count_eq kind hcount hbytes, ?_⟩
  · rw [tagged, List.append_assoc] at hbytes
    exact SubMessage.ofPacket_eq kind hbytes
  · rw [← length_tagged kind count]
    exact Packet.data_adj h

theorem format_cstruct (hfuel : 0 < fuel) (hgarbage : msg.garbage = []) {pkt : Packet}
    (hdata : pkt.data = littleEndian SubMessage.tagSize SubMessage.cstruct.tag ++ rest) :
    msg.format fuel [pkt] = some (true, { msg with
      cstructPkt := some (pkt.adj SubMessage.tagSize)
      garbage := [pkt.adj SubMessage.tagSize] }) := by
  obtain ⟨rounds, rfl⟩ := Nat.exists_eq_add_of_lt hfuel
  rw [Nat.zero_add, SingleMsg.format, SubMessage.ofPacket_eq .cstruct (Packet.bytes_of_data hdata)]
  change (batchAdd msg.garbage (pkt.adj SubMessage.tagSize)).bind _ = _
  rw [hgarbage]
  cases rounds <;> rfl

/-- Flow states behind their tag and count, before more packets. -/
theorem format_flowState_append (fuel : ℕ) (hfs : msg.fsMsgBatch = []) (hgarbage : msg.garbage = [])
    {pkt : Packet} (behind : List Packet) (hburst : others.length + 1 ≤ kMaxBurst)
    (hdata : pkt.data = tagged .binaryFlowState (others.length + 1) ++ rest) :
    msg.format (fuel + 1) (pkt :: (others ++ behind)) = SingleMsg.format { msg with
      fsMsgBatch := pkt.adj (SubMessage.tagSize + 1) :: others
      garbage := pkt.adj (SubMessage.tagSize + 1) :: others } fuel behind := by
  obtain ⟨hkind, hcount, -⟩ := tagged_eq (by rw [kMaxBurst] at hburst; omega) hdata
  have hadd := addFlowState_eq (pkt.adj (SubMessage.tagSize + 1) :: others) behind msg
    (by rw [hfs]; simpa using hburst) (by rw [hgarbage]; simpa using hburst)
  rw [SingleMsg.format, hkind]
  dsimp only
  rw [List.length_cons, List.cons_append] at hadd
  rw [hcount, hadd, hfs, hgarbage, List.drop_succ_cons, List.drop_left]
  rfl

theorem format_flowState (hfuel : 0 < fuel) (hfs : msg.fsMsgBatch = []) (hgarbage : msg.garbage = [])
    {pkt : Packet} (hburst : others.length + 1 ≤ kMaxBurst)
    (hdata : pkt.data = tagged .binaryFlowState (others.length + 1) ++ rest) :
    msg.format fuel (pkt :: others) = some (true, { msg with
      fsMsgBatch := pkt.adj (SubMessage.tagSize + 1) :: others
      garbage := pkt.adj (SubMessage.tagSize + 1) :: others }) := by
  obtain ⟨rounds, rfl⟩ := Nat.exists_eq_add_of_lt hfuel
  have hformat := format_flowState_append rounds hfs hgarbage [] hburst hdata
  rw [List.append_nil] at hformat
  rw [Nat.zero_add, hformat]
  cases rounds <;> rfl

namespace Request

/-- The packets of a request: the header starts the first one, and the formatting loop finds the message behind
it. -/
structure Framed (request : Request) (first : Packet) (others : List Packet) : Prop where
  burst : others.length + 1 ≤ kMaxBurst
  header : ∃ header body, first.data = header.bytes ++ body ∧ others.length + 1 = header.msgPktNum.toNat ∧
    ∀ fuel msg pkt pkts, 0 < fuel → msg.fsMsgBatch = [] → msg.garbage = [] → msg.rmh = header →
      pkt.data = body → pkts.map Packet.data = others.map Packet.data →
        ∃ msg', SingleMsg.format msg fuel (pkt :: pkts) = some (true, msg') ∧ request.Renders msg'

theorem framed_cstruct {address : Address} {bytes : List UInt8} {pkt : Packet}
    (hpkt : (createCstructSubMsg bytes).prepend (address.header 1).bytes = some pkt) :
    Framed (.cstruct address bytes) pkt [] := by
  refine ⟨by decide, address.header 1, _, Packet.data_prepend hpkt, rfl, ?_⟩
  intro fuel msg pkt' pkts hfuel _ hgarbage hrmh hdata hpkts
  rw [List.map_eq_nil_iff.1 hpkts]
  rw [createCstructSubMsg, Packet.data_alloc] at hdata
  refine ⟨_, format_cstruct hfuel hgarbage hdata, hrmh, _, rfl, ?_⟩
  have hrest := Packet.data_adj hdata
  rwa [length_littleEndian] at hrest

theorem framed_batch {address : Address} {pkts : List Packet} {hburst : pkts.length ≤ kMaxBurst}
    {hheadroom : ∀ pkt ∈ pkts, pktMsgOffset ≤ pkt.dataOff} {run : List Packet}
    (hrun : (encodeBinaryFsSubMsg pkts).bind (prependHeader (address.header pkts.length)) = some run) :
    ∃ first others, run = first :: others ∧ Framed (.batch address pkts hburst hheadroom) first others := by
  obtain ⟨encoded, hencode, hprepend⟩ := bind_eq_some_iff.1 hrun
  cases pkts with
  | nil => cases hencode
  | cons head others =>
    obtain ⟨encoded, htagged, hsome⟩ := bind_eq_some_iff.1 hencode
    cases hsome
    obtain ⟨first, hfirst, hsome⟩ := bind_eq_some_iff.1 hprepend
    cases hsome
    obtain ⟨counted, hcounted, htag⟩ := bind_eq_some_iff.1 htagged
    have hcount : others.length + 1 < 256 := by
      rw [List.length_cons, kMaxBurst] at hburst
      omega
    refine ⟨first, others, rfl, hburst, address.header (head :: others).length,
      tagged .binaryFlowState (others.length + 1) ++ head.data, ?_, ?_, ?_⟩
    · rw [Packet.data_prepend hfirst, Packet.data_prepend htag, Packet.data_prepend hcounted, tagged,
        List.append_assoc (littleEndian _ _)]
    · rw [Address.header, List.length_cons, UInt16.toNat_ofNat']
      omega
    · intro fuel msg pkt rest hfuel hfs hgarbage hrmh hdata hrest
      have hlength : rest.length = others.length := by
        simpa only [List.length_map] using congrArg List.length hrest
      refine ⟨_, format_flowState hfuel hfs hgarbage (by rw [hlength]; exact hburst)
        (by rw [hlength]; exact hdata), hrmh, ?_⟩
      rw [List.map_cons, List.map_cons, hrest, (tagged_eq hcount hdata).2.2]

theorem framed_of_encode {request : Request} {run : List Packet} (hrun : request.encode = some run) :
    ∃ first others, run = first :: others ∧ request.Framed first others := by
  cases request with
  | cstruct =>
    rw [encode] at hrun
    obtain ⟨pkt, hpkt, rfl⟩ := map_eq_some_iff.1 hrun
    exact ⟨pkt, [], rfl, framed_cstruct hpkt⟩
  | batch => exact framed_batch hrun

end Request

/-- The packets of a request give one message, with the last packet. -/
theorem receiveAll_request (hfuel : 0 < fuel) (hidle : p2p.Idle seqNum) {request : Request} {run : List Packet}
    (hrun : request.encode = some run) (hpayload : arrivals.map (fun arrival ↦ arrival.1.payload) = run)
    (hseq : InSequence seqNum (arrivals.map Prod.fst)) :
    ∃ msg p2p', receiveAll fuel p2p arrivals =
        some (List.replicate (run.length - 1) none ++ [some msg], p2p') ∧
      request.Renders msg ∧ p2p'.Idle (seqNum + UInt32.ofNat run.length) := by
  obtain ⟨first, others, rfl, hframed⟩ := Request.framed_of_encode hrun
  obtain ⟨header, body, hbody, hcount, hformat⟩ := hframed.header
  cases arrivals with
  | nil => cases hpayload
  | cons arrival rest =>
    rw [List.map_cons, List.cons.injEq] at hpayload
    obtain ⟨rfl, hothers⟩ := hpayload
    have hlength : rest.length = others.length := by
      rw [← hothers, List.length_map]
    have hburst := hframed.burst
    rw [← hlength] at hcount hburst
    obtain ⟨msg, hmsg, hrenders⟩ := hformat fuel { p2p.curMsg with rmh := header } _ _ hfuel
      hidle.fsMsgBatch hidle.garbage rfl (arrival.1.data_adj_first hbody)
      ((map_data_strip rest).trans (by rw [← hothers, List.map_map]; rfl))
    obtain ⟨accepted, hnext, hall⟩ := receiveAll_message fuel hidle hbody hcount hburst hseq
    rw [hmsg] at hall
    refine ⟨msg, { accepted with batch := [], curMsg := msg.clean.2 }, ?_, hrenders, ⟨rfl, rfl, rfl, ?_⟩⟩
    · rw [hall, List.length_cons, hlength]
      rfl
    · rw [List.length_cons, ← hlength]
      exact hnext

/-- The answers to the packets of several requests. -/
def answersTo (runs : List (List Packet)) (messages : List SingleMsg) : List (Option SingleMsg) :=
  (List.zipWith (fun run msg ↦ List.replicate (run.length - 1) none ++ [some msg]) runs messages).flatten

theorem receiveAll_requests (hfuel : 0 < fuel) {requests : List Request} {runs : List (List Packet)}
    (hruns : List.Forall₂ (fun request run ↦ request.encode = some run) requests runs)
    (hidle : p2p.Idle seqNum) (hpayload : arrivals.map (fun arrival ↦ arrival.1.payload) = runs.flatten)
    (hseq : InSequence seqNum (arrivals.map Prod.fst)) :
    ∃ messages p2p', receiveAll fuel p2p arrivals = some (answersTo runs messages, p2p') ∧
      List.Forall₂ Request.Renders requests messages := by
  induction hruns generalizing p2p seqNum arrivals with
  | nil =>
    have hnone : arrivals = [] := List.map_eq_nil_iff.1 hpayload
    rw [hnone]
    exact ⟨[], p2p, rfl, .nil⟩
  | @cons _ run _ _ hrun _ ih =>
    rw [List.flatten_cons] at hpayload
    obtain ⟨first, rest, rfl, hfirst, hrest⟩ := List.map_eq_append_iff.1 hpayload
    rw [List.map_append, inSequence_append] at hseq
    obtain ⟨msg, mid, hall, hrenders, hidle'⟩ := receiveAll_request hfuel hidle hrun hfirst hseq.1
    have hlength : (first.map Prod.fst).length = run.length := by
      rw [← hfirst, List.length_map, List.length_map]
    have hseq' := hseq.2
    rw [hlength] at hseq'
    obtain ⟨messages, p2p', hall', hrenders'⟩ := ih hidle' hrest hseq'
    refine ⟨msg :: messages, p2p', ?_, .cons hrenders hrenders'⟩
    rw [receiveAll_append hall hall']
    simp [answersTo]

/-! ## Sending requests -/

/-- What a run of pushes adds to the queue. -/
theorem foldl_push_spec (hN : ValidSize N) (run : List Packet) {queue : SendQueue N Packet}
    (hwf : queue.WellFormed) (hfit : run.length + queue.curSize ≤ N) :
    ∃ pushed, (run.foldl (fun q payload ↦ (q.push payload).2) queue).contents = queue.contents ++ pushed ∧
      pushed.map Segment.payload = run ∧ InSequence queue.nextSeqNum pushed ∧
      (run.foldl (fun q payload ↦ (q.push payload).2) queue).nextSeqNum =
        queue.nextSeqNum + UInt32.ofNat run.length ∧
      (run.foldl (fun q payload ↦ (q.push payload).2) queue).WellFormed := by
  induction run generalizing queue with
  | nil => exact ⟨[], by simp, rfl, trivial, by simp, hwf⟩
  | cons payload _ ih =>
    rw [List.length_cons] at hfit
    have hroom : queue.curSize ≠ N := by omega
    have hsize : (queue.push payload).2.curSize = queue.curSize + 1 := by
      rw [SendQueue.push, if_neg hroom]
    have hnext : (queue.push payload).2.nextSeqNum = queue.nextSeqNum + 1 := by
      rw [SendQueue.push, if_neg hroom]
    obtain ⟨pushed, hcontents, hpayload, hseq, hnext', hwf'⟩ := ih (hwf.push hN payload) (by omega)
    rw [SendQueue.contents_push hN hwf payload (by omega), List.append_assoc] at hcontents
    rw [hnext] at hseq hnext'
    refine ⟨_, hcontents, ?_, ⟨rfl, rfl, hseq⟩, ?_, hwf'⟩
    · rw [List.map_append, hpayload]
      rfl
    · rw [List.foldl_cons, hnext', List.length_cons, Nat.add_comm, UInt32.ofNat_add, ← UInt32.add_assoc]
      rfl

/-- A request is refused, or its packets are pushed. -/
theorem reliableSend_spec {p2p' : PeerToPeer N} {allocOk : Bool} {request : Request} {count : ℕ}
    (hwf : p2p.sendQueue.WellFormed) (hsend : p2p.reliableSend allocOk request = some (count, p2p')) :
    count = 0 ∧ p2p' = p2p ∨ ∃ run, request.encode = some run ∧ count ≠ 0 ∧ p2p.isConnectionUp = true ∧
        run.length + p2p.sendQueue.curSize ≤ N ∧
        p2p' = { p2p with sendQueue := run.foldl (fun q payload ↦ (q.push payload).2) p2p.sendQueue } := by
  have hsize := hwf.size_le
  cases request with
  | cstruct =>
    rw [reliableSend, reliableSendCstruct] at hsend
    split at hsend
    · cases hsend
      exact .inl ⟨rfl, rfl⟩
    next hroom =>
      split at hsend
      · obtain ⟨pkt, hpkt, hsome⟩ := bind_eq_some_iff.1 hsend
        cases hsome
        have hremaining : p2p.sendQueue.peekRemainingSize ≠ 0 := fun h ↦ hroom (.inr h)
        rw [SendQueue.peekRemainingSize] at hremaining
        refine .inr ⟨[pkt], ?_, by simp, ?_, ?_, rfl⟩
        · rw [Request.encode, hpkt]
          rfl
        · exact Bool.eq_true_of_not_eq_false fun h ↦ hroom (.inl h)
        · rw [List.length_singleton]
          omega
      · cases hsend
        exact .inl ⟨rfl, rfl⟩
  | batch address pkts hburst hheadroom =>
    rw [reliableSend, reliableSendBatch] at hsend
    split at hsend
    · cases hsend
      exact .inl ⟨rfl, rfl⟩
    next hroom =>
      obtain ⟨encoded, hencode, hrest⟩ := bind_eq_some_iff.1 hsend
      obtain ⟨run, hprepend, hsome⟩ := bind_eq_some_iff.1 hrest
      cases hsome
      have hlength : run.length = pkts.length :=
        (length_prependHeader hprepend).trans (length_encodeBinaryFsSubMsg hencode)
      have hremaining : ¬p2p.sendQueue.peekRemainingSize < pkts.length := fun h ↦ hroom (.inr h)
      rw [SendQueue.peekRemainingSize] at hremaining
      have hfit : run.length + p2p.sendQueue.curSize ≤ N := by omega
      have hencoded : Request.encode (.batch address pkts hburst hheadroom) = some run := by
        rw [Request.encode, hencode]
        exact hprepend
      obtain ⟨first, others, hrun, -⟩ := Request.framed_of_encode hencoded
      refine .inr ⟨run, hencoded, ?_, ?_, hfit, ?_⟩
      · rw [← hlength, hrun]
        simp
      · exact Bool.eq_true_of_not_eq_false fun h ↦ hroom (.inl h)
      · rw [pushAll, SendQueue.pushBatch, if_neg (not_lt.2 hfit)]

end PeerToPeer

/-- Requests, acknowledgements, transmissions and checks at the sending end. -/
inductive SenderInput
  | send (allocOk : Bool) (request : PeerToPeer.Request)
  | acknowledge (ackSeqNum : UInt32) (currentNs : UInt64)
  | getSendBatch (batchSize : ℕ) (copyOk : ℕ → Bool) (currentNs : UInt64)
  | check (currentNs : UInt64)

/-- A sending end with the requests accepted and the packets pushed for them. -/
structure SenderRun (N : ℕ) where
  p2p : PeerToPeer N
  requests : List PeerToPeer.Request
  wire : List (Segment Packet)

namespace SenderRun

open PeerToPeer

variable {N : ℕ} {pkts : List Packet} {p2p : PeerToPeer N} {run' : SenderRun N}

/-- A call that returns `true` is recorded with the packets it has queued. -/
def step (run : SenderRun N) : SenderInput → Option (SenderRun N)
  | .send allocOk request => (run.p2p.reliableSend allocOk request).map fun (count, p2p) ↦
    { p2p := p2p
      requests := if count = 0 then run.requests else run.requests ++ [request]
      wire := run.wire ++ p2p.sendQueue.contents.drop run.p2p.sendQueue.curSize }
  | .acknowledge ackSeqNum currentNs =>
    (run.p2p.sendQueue.pop ackSeqNum currentNs).map fun (_, sendQueue) ↦
      { run with p2p := { run.p2p with sendQueue } }
  | .getSendBatch batchSize copyOk currentNs =>
    some { run with p2p := { run.p2p with
      sendQueue := (run.p2p.sendQueue.getWindowBatch batchSize copyOk currentNs).2 } }
  | .check currentNs => some { run with p2p := (run.p2p.check currentNs).2 }

/-- Runs start with a new connection. -/
def system (N : ℕ) : TransitionSystem (SenderRun N) SenderInput where
  init run := ∃ destRtid outputGate ackFrame currentNs ringBuf sendTime rh curMsg,
    run = ⟨.init destRtid outputGate ackFrame currentNs (.init ringBuf sendTime rh) curMsg, [], []⟩
  step := step

/-- The packets that an accepted request adds to the queue. -/
structure Accepted (run : SenderRun N) (request : Request) (pkts : List Packet)
    (pushed : List (Segment Packet)) (p2p : PeerToPeer N) : Prop where
  up : run.p2p.isConnectionUp = true
  encode : request.encode = some pkts
  payload : pushed.map Segment.payload = pkts
  sequence : InSequence run.p2p.sendQueue.nextSeqNum pushed
  next : p2p.sendQueue.nextSeqNum = run.p2p.sendQueue.nextSeqNum + UInt32.ofNat pkts.length
  wellFormed : p2p.sendQueue.WellFormed

variable {run : SenderRun N} {request : Request} {pushed : List (Segment Packet)}
  {packets : List (List Packet)}

theorem Accepted.length (h : run.Accepted request pkts pushed p2p) : pushed.length = pkts.length := by
  rw [← h.payload, List.length_map]

/-- A request is refused, or its packets are pushed and recorded. -/
theorem send_cases (hN : ValidSize N) (hwf : run.p2p.sendQueue.WellFormed) {allocOk : Bool}
    (hstep : run.step (.send allocOk request) = some run') :
    run' = run ∨ ∃ pkts pushed p2p, run.Accepted request pkts pushed p2p ∧
      run' = ⟨p2p, run.requests ++ [request], run.wire ++ pushed⟩ := by
  obtain ⟨⟨count, p2p⟩, hsend, rfl⟩ := map_eq_some_iff.1 hstep
  rcases reliableSend_spec hwf hsend with ⟨rfl, rfl⟩ | ⟨pkts, hencode, hcount, hup, hfit, rfl⟩
  · left
    have hnone : run.p2p.sendQueue.contents.drop run.p2p.sendQueue.curSize = [] :=
      List.drop_of_length_le (by simp)
    dsimp only
    rw [hnone, List.append_nil]
    rfl
  · right
    obtain ⟨pushed, hcontents, hpayload, hseq, hnext, hwf'⟩ := foldl_push_spec hN pkts hwf hfit
    have hnew : (pkts.foldl (fun q payload ↦ (q.push payload).2) run.p2p.sendQueue).contents.drop
        run.p2p.sendQueue.curSize = pushed := by
      rw [hcontents]
      exact List.drop_left' (SendQueue.length_contents _)
    refine ⟨pkts, pushed, { run.p2p with
      sendQueue := pkts.foldl (fun q payload ↦ (q.push payload).2) run.p2p.sendQueue },
      ⟨hup, hencode, hpayload, hseq, hnext, hwf'⟩, ?_⟩
    dsimp only
    rw [if_neg hcount, hnew]

/-- The wire holds the packets of the accepted requests. -/
def Encodes (run : SenderRun N) (packets : List (List Packet)) : Prop :=
  List.Forall₂ (fun request pkts ↦ Request.encode request = some pkts) run.requests packets ∧
    run.wire.map Segment.payload = packets.flatten

theorem Encodes.accepted (h : run.Encodes packets) (haccepted : run.Accepted request pkts pushed p2p) :
    Encodes ⟨p2p, run.requests ++ [request], run.wire ++ pushed⟩ (packets ++ [pkts]) := by
  obtain ⟨hpackets, hwire⟩ := h
  refine ⟨List.rel_append hpackets (.cons haccepted.encode .nil), ?_⟩
  rw [List.map_append, hwire, haccepted.payload, List.flatten_append, List.flatten_singleton]

/-- Every step leaves what is encoded where it is. -/
theorem Encodes.step (hN : ValidSize N) (h : run.Encodes packets) (hwf : run.p2p.sendQueue.WellFormed)
    {input : SenderInput} (hstep : run.step input = some run') : ∃ more, run'.Encodes (packets ++ more) := by
  cases input with
  | send =>
    rcases send_cases hN hwf hstep with rfl | ⟨pkts, pushed, p2p, haccepted, rfl⟩
    · exact ⟨[], by rwa [List.append_nil]⟩
    · exact ⟨[pkts], h.accepted haccepted⟩
  | acknowledge =>
    obtain ⟨popped, -, rfl⟩ := map_eq_some_iff.1 hstep
    exact ⟨[], by rwa [List.append_nil]⟩
  | getSendBatch | check =>
    cases hstep
    exact ⟨[], by rwa [List.append_nil]⟩

/-- The wire holds the packets of the accepted requests, numbered from one. -/
structure Streamed (run : SenderRun N) : Prop where
  wellFormed : run.p2p.sendQueue.WellFormed
  next : run.p2p.isConnectionUp = true →
    run.p2p.sendQueue.nextSeqNum = 1 + UInt32.ofNat run.wire.length
  sequence : InSequence 1 run.wire
  encoded : ∃ packets, List.Forall₂ (fun request pkts ↦ Request.encode request = some pkts) run.requests packets ∧
    run.wire.map Segment.payload = packets.flatten

namespace Streamed

variable {run run' : SenderRun N}

theorem of_same (h : run.Streamed) {p2p : PeerToPeer N} (hwf : p2p.sendQueue.WellFormed)
    (hnext : p2p.isConnectionUp = true → run.p2p.isConnectionUp = true ∧
      p2p.sendQueue.nextSeqNum = run.p2p.sendQueue.nextSeqNum) : Streamed { run with p2p := p2p } where
  wellFormed := hwf
  next := by
    intro hup
    obtain ⟨hup', heq⟩ := hnext hup
    exact heq.trans (h.next hup')
  sequence := h.sequence
  encoded := h.encoded

theorem send (hN : ValidSize N) (h : run.Streamed) {allocOk : Bool} {request : Request}
    (hstep : run.step (.send allocOk request) = some run') : run'.Streamed := by
  obtain ⟨packets, hpackets⟩ : ∃ packets, run.Encodes packets := h.encoded
  rcases send_cases hN h.wellFormed hstep with rfl | ⟨pkts, pushed, p2p, haccepted, rfl⟩
  · exact h
  · refine ⟨haccepted.wellFormed, ?_, ?_, _, hpackets.accepted haccepted⟩
    · intro _
      rw [haccepted.next, h.next haccepted.up, List.length_append, UInt32.ofNat_add, haccepted.length,
        UInt32.add_assoc]
    · rw [inSequence_append, ← h.next haccepted.up]
      exact ⟨h.sequence, haccepted.sequence⟩

theorem step (hN : ValidSize N) (h : run.Streamed) {input : SenderInput}
    (hstep : run.step input = some run') : run'.Streamed := by
  cases input with
  | send => exact h.send hN hstep
  | acknowledge =>
    obtain ⟨⟨collected, sendQueue⟩, hpop, rfl⟩ := map_eq_some_iff.1 hstep
    exact h.of_same (h.wellFormed.pop hN hpop).1 fun hup ↦ ⟨hup, (SendQueue.pop_frame hpop).2⟩
  | getSendBatch batchSize copyOk currentNs =>
    obtain ⟨sent, -, -, -, -, hwf, -, -, hnext, -⟩ :=
      SendQueue.getWindowBatch_spec hN h.wellFormed batchSize copyOk currentNs
    cases hstep
    exact h.of_same hwf fun hup ↦ ⟨hup, hnext⟩
  | check currentNs =>
    cases hstep
    apply h.of_same (check_spec hN h.wellFormed currentNs).1
    intro hup
    obtain ⟨hup', -, hqueue | hqueue⟩ := check_of_up hup
    · exact ⟨hup', by rw [hqueue]⟩
    · exact ⟨hup', by rw [hqueue]; rfl⟩

theorem of_reachable (hN : ValidSize N) {guard : SenderRun N → SenderInput → Prop}
    (hreach : (system N).Reachable guard run) : run.Streamed := by
  apply hreach.invariant
  · rintro run ⟨destRtid, outputGate, ackFrame, currentNs, ringBuf, sendTime, rh, curMsg, rfl⟩
    exact ⟨SendQueue.wellFormed_init hN ringBuf sendTime rh, fun _ ↦ rfl, trivial, [], .nil, rfl⟩
  · intro run input run' h _ hstep
    exact h.step hN hstep

end Streamed

/-- Everything that was pushed, handed to a new receiver in order, comes out as the messages that
`reliable_send` accepted: each with the last of its packets, and nothing with any other packet. -/
theorem framing_round_trip (hN : ValidSize N) {run : SenderRun N}
    (hreach : (system N).Reachable TransitionSystem.anyStep run) {fuel : ℕ} (hfuel : 0 < fuel)
    (destRtid : ℤ) (outputGate : UInt16) (ackFrame : List UInt8) (startNs : UInt64)
    (sendQueue : SendQueue N Packet) (curMsg : SingleMsg) (arrivals : List (Segment Packet × UInt64))
    (harrivals : arrivals.map Prod.fst = run.wire) :
    ∃ packets messages receiver,
      List.Forall₂ (fun request pkts ↦ Request.encode request = some pkts) run.requests packets ∧
      List.Forall₂ Request.Renders run.requests messages ∧
      receiveAll fuel (.init destRtid outputGate ackFrame startNs sendQueue curMsg) arrivals =
        some (answersTo packets messages, receiver) := by
  have hstreamed := Streamed.of_reachable hN hreach
  obtain ⟨packets, hpackets, hwire⟩ := hstreamed.encoded
  have hidle : (PeerToPeer.init destRtid outputGate ackFrame startNs sendQueue curMsg).Idle 1 :=
    ⟨rfl, rfl, rfl, rfl⟩
  have hpayload : arrivals.map (fun arrival ↦ arrival.1.payload) = packets.flatten := by
    rw [← hwire, ← harrivals, List.map_map]
    rfl
  obtain ⟨messages, receiver, hall, hrenders⟩ := receiveAll_requests hfuel hpackets hidle hpayload
    (by rw [harrivals]; exact hstreamed.sequence)
  exact ⟨packets, messages, receiver, hpackets, hrenders, hall⟩

/-- A structure of three bytes and two packets of flow state, one of them empty. -/
def twoRequests : List SenderInput :=
  [.send true (.cstruct ⟨1, 2, 3, 4⟩ [7, 8, 9]),
    .send true (.batch ⟨5, 6, 7, 8⟩ [Packet.ofBytes 128 [0xA1], Packet.ofBytes 128 []] (by decide)
      (by decide))]

def freshSender : SenderRun 8 :=
  ⟨.init 2 0 [] 0 (.init (fun _ ↦ ⟨⟨[], 0, 0⟩, Packet.ofBytes 0 []⟩) (fun _ ↦ 0) (fun _ ↦ []))
    ⟨2, ⟨0, 0, 0, 0, 0⟩, none, [], none, []⟩, [], []⟩

/-- The two requests take three packets and come out as two messages. -/
theorem framing_round_trip_two_requests : ∃ run : SenderRun 8,
    (system 8).run freshSender twoRequests = some run ∧ run.requests.length = 2 ∧ run.wire.length = 3 ∧
      ∃ packets messages receiver,
        List.Forall₂ (fun request pkts ↦ Request.encode request = some pkts) run.requests packets ∧
        List.Forall₂ Request.Renders run.requests messages ∧
        receiveAll 1 freshSender.p2p (run.wire.map fun pkt ↦ (pkt, 0)) =
          some (answersTo packets messages, receiver) := by
  obtain ⟨run, hsteps, hrequests, hwire⟩ : ∃ run ∈ (system 8).run freshSender twoRequests,
      run.requests.length = 2 ∧ run.wire.length = 3 := by decide +kernel
  have hreach : (system 8).Reachable TransitionSystem.anyStep run := .replay ⟨_, _, _, _, _, _, _, _, rfl⟩ hsteps
  refine ⟨run, hsteps, hrequests, hwire, ?_⟩
  exact framing_round_trip ⟨⟨3, rfl⟩, by decide⟩ hreach Nat.one_pos _ _ _ _ _ _ _
    (by rw [List.map_map]; exact List.map_id _)

end SenderRun

end NfvActor.Reliable
