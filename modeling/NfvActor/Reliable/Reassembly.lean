import Mathlib.Tactic
import NfvActor.Reliable.Receive
import NfvActor.Reliable.StateAndPacket

/-!
# Putting the packets of a peer together again

The receiving half with the identities of its packets does what `reliable_p2p` does without them. When the peer
only sends structures and batches of flow states, the accepted packets run through its messages one after the
other, and the counts in them add up, whatever the network does.
-/

namespace NfvActor.Reliable

open Option (bind_eq_some_iff map_eq_some_iff)

section

variable {ι : Type} {N : ℕ}

namespace HeldMsg

/-- The message without the identities of its packets. -/
def erase (msg : HeldMsg ι) : SingleMsg where
  sendRuntimeId := msg.sendRuntimeId
  rmh := msg.rmh
  cstructPkt := msg.cstructPkt.map Held.pkt
  fsMsgBatch := msg.fsMsgBatch.map Held.pkt
  rawPkt := msg.rawPkt.map Held.pkt
  garbage := msg.garbage.map Held.pkt

theorem batchAdd_map (batch : List (Held ι)) (held : Held ι) :
    batchAdd (batch.map Held.pkt) held.pkt = (batchAdd batch held).map (List.map Held.pkt) := by
  unfold batchAdd
  rw [List.length_map]
  split
  · rw [Option.map_some, List.map_append, List.map_singleton]
  · rfl

theorem erase_addFlowState (num : ℕ) (msg : HeldMsg ι) (batch : List (Held ι)) :
    msg.erase.addFlowState num (batch.map Held.pkt) = (msg.addFlowState num batch).map erase := by
  induction num generalizing msg batch with
  | zero => rfl
  | succ _ ih =>
    cases batch with
    | nil => rfl
    | cons held rest =>
      rw [List.map_cons, SingleMsg.addFlowState, addFlowState]
      simp only [erase, batchAdd_map]
      cases batchAdd msg.fsMsgBatch held with
      | none => rfl
      | some fsMsgBatch =>
        cases batchAdd msg.garbage held with
        | none => rfl
        | some garbage => exact ih { msg with fsMsgBatch, garbage } rest

theorem erase_addRawPacket (num : ℕ) (msg : HeldMsg ι) (held : Held ι) (rest : List (Held ι)) :
    msg.erase.addRawPacket num held.pkt (rest.map Held.pkt) =
      (msg.addRawPacket num held rest).map fun result ↦ result.2.erase := by
  unfold SingleMsg.addRawPacket addRawPacket
  split
  · cases rest with
    | nil => rfl
    | cons supplement =>
      simp only [List.map_cons, erase, batchAdd_map]
      cases held.pkt.append supplement.pkt.data with
      | none => rfl
      | some => cases batchAdd msg.garbage supplement <;> rfl
  · rfl

theorem rawPkt_addRawPacket {num : ℕ} {msg msg' : HeldMsg ι} {held held' : Held ι} {rest : List (Held ι)}
    (h : msg.addRawPacket num held rest = some (held', msg')) : msg'.rawPkt = some held' := by
  unfold addRawPacket at h
  split at h
  · cases rest with
    | nil => cases h
    | cons =>
      obtain ⟨whole, -, hrest⟩ := bind_eq_some_iff.1 h
      obtain ⟨garbage, -, hsome⟩ := bind_eq_some_iff.1 hrest
      cases hsome
      rfl
  · cases h
    rfl

/-- `format` moves the packets as it does without their identities. -/
theorem erase_format (fuel : ℕ) (msg : HeldMsg ι) (batch : List (Held ι)) :
    msg.erase.format fuel (batch.map Held.pkt) =
      (msg.format fuel batch).map fun result ↦ (result.1, result.2.erase) := by
  induction fuel generalizing msg batch with
  | zero => cases batch <;> rfl
  | succ _ ih =>
    cases batch with
    | nil => rfl
    | cons held rest =>
      rw [List.map_cons, SingleMsg.format, format]
      generalize SubMessage.ofPacket held.pkt = kind
      rcases kind with _ | _ | _ | _
      · rfl
      · have hadd := batchAdd_map msg.garbage (held.adj SubMessage.tagSize)
        rw [Held.adj] at hadd
        simp only [erase, hadd, Held.adj]
        cases batchAdd msg.garbage _ with
        | none => rfl
        | some garbage => exact ih { msg with cstructPkt := some (held.adj SubMessage.tagSize), garbage } rest
      · have hadd := erase_addFlowState (held.pkt.read SubMessage.tagSize 1) msg
          (held.adj (SubMessage.tagSize + 1) :: rest)
        rw [List.map_cons] at hadd
        dsimp only [Held.adj] at hadd ⊢
        rw [hadd]
        cases addFlowState msg _ _ with
        | none => rfl
        | some msg' =>
          have hrest := ih msg' ((held.adj (SubMessage.tagSize + 1) :: rest).drop
            (held.pkt.read SubMessage.tagSize 1))
          rw [List.map_drop, List.map_cons] at hrest
          exact hrest
      · have hadd := erase_addRawPacket (held.pkt.read SubMessage.tagSize 1) msg
          (held.adj (SubMessage.tagSize + 1)) rest
        dsimp only [Held.adj] at hadd ⊢
        rw [hadd]
        cases hraw : addRawPacket msg _ _ _ with
        | none => rfl
        | some result =>
          obtain ⟨held', msg'⟩ := result
          have hrest := ih msg' ((held' :: rest).drop (held.pkt.read SubMessage.tagSize 1))
          rw [List.map_drop, List.map_cons] at hrest
          have hwhole : msg'.erase.rawPkt = some held'.pkt := by
            rw [erase, rawPkt_addRawPacket hraw]
            rfl
          dsimp only [Option.map_some, Option.bind_eq_bind, Option.bind_some]
          rw [hwhole]
          exact hrest

end HeldMsg

namespace Segment

/-- The packet is delivered in this buffer, with the addresses of the last hop. -/
def ArrivesAs (segment : Segment Packet) (pkt : Packet) : Prop :=
  pkt.data.drop magicNumOffset =
    [segment.header.magicNum, 0] ++ littleEndian 4 segment.header.seqNum.toNat ++ segment.payload.data

instance (segment : Segment Packet) (pkt : Packet) : Decidable (segment.ArrivesAs pkt) :=
  inferInstanceAs (Decidable (_ = _))

/-- The buffer as a header with what is behind it. -/
def received (segment : Segment Packet) (pkt : Packet) : Segment Packet where
  header := { segment.header with frame := pkt.bytes.take magicNumOffset }
  payload :=
    { dataOff := pkt.dataOff + reliableHeaderSize
      bytes := pkt.bytes.drop reliableHeaderSize
      dataLen := pkt.dataLen - reliableHeaderSize
      fits := by
        rw [List.length_drop]
        exact Nat.sub_le_sub_right pkt.fits _ }

namespace ArrivesAs

variable {segment : Segment Packet} {pkt : Packet}

theorem length_header {frame : List UInt8} (hframe : frame.length = magicNumOffset) (magicNum : UInt8)
    (seqNum : UInt32) : (ReliableHeader.bytes ⟨frame, magicNum, seqNum⟩).length = reliableHeaderSize := by
  rw [ReliableHeader.bytes, List.length_append, List.length_append, hframe, length_littleEndian]
  rfl

variable (h : segment.ArrivesAs pkt)

include h

theorem data_eq : ∃ frame : List UInt8, frame.length = magicNumOffset ∧
    pkt.data = ReliableHeader.bytes ⟨frame, segment.header.magicNum, segment.header.seqNum⟩ ++
      segment.payload.data := by
  refine ⟨pkt.data.take magicNumOffset, ?_, ?_⟩
  · have hlength := congrArg List.length h
    rw [List.length_drop, List.length_append, List.length_append, length_littleEndian, List.length_cons] at hlength
    rw [List.length_take, min_eq_left]
    omega
  · rw [ReliableHeader.bytes, List.append_assoc, List.append_assoc, ← List.append_assoc [_, _], ← h]
    exact (List.take_append_drop _ _).symm

theorem bytes_eq : ∃ frame rest : List UInt8, frame.length = magicNumOffset ∧
    pkt.bytes = ReliableHeader.bytes ⟨frame, segment.header.magicNum, segment.header.seqNum⟩ ++ rest := by
  obtain ⟨frame, hframe, hdata⟩ := h.data_eq
  exact ⟨frame, _, hframe, Packet.bytes_of_data hdata⟩

theorem read_magicNum : UInt8.ofNat (pkt.read magicNumOffset 1) = segment.header.magicNum := by
  obtain ⟨frame, rest, hframe, hheader⟩ := h.bytes_eq
  have hbytes : pkt.bytes = frame ++ [segment.header.magicNum] ++
      (0 :: (littleEndian 4 segment.header.seqNum.toNat ++ rest)) := by
    rw [hheader]
    simp [ReliableHeader.bytes]
  have hread := pkt.read_eq hbytes
  rw [hframe, List.length_singleton] at hread
  rw [hread]
  simp [fromLittleEndian]

theorem read_seqNum : UInt32.ofNat (pkt.read seqNumOffset 4) = segment.header.seqNum := by
  obtain ⟨frame, rest, hframe, hheader⟩ := h.bytes_eq
  have hlength : (frame ++ [segment.header.magicNum, 0]).length = seqNumOffset := by
    rw [List.length_append, hframe]
    rfl
  have hread := pkt.read_eq hheader
  rw [hlength, length_littleEndian, fromLittleEndian_littleEndian,
    Nat.mod_eq_of_lt (by simpa using UInt32.toNat_lt _)] at hread
  rw [hread, UInt32.ofNat_toNat]

theorem data_adj_first {header : MessageHeader} {body : List UInt8}
    (hpayload : segment.payload.data = header.bytes ++ body) :
    (pkt.adj (reliableHeaderSize + MessageHeader.size)).data = body ∧
      MessageHeader.behindHeader pkt = header := by
  obtain ⟨frame, hframe, hdata⟩ := h.data_eq
  have hlength := length_header hframe segment.header.magicNum segment.header.seqNum
  rw [hpayload, ← List.append_assoc] at hdata
  constructor
  · rw [← hlength, ← header.length_bytes, ← List.length_append]
    exact Packet.data_adj hdata
  · have hbytes := Packet.bytes_of_data hdata
    rw [List.append_assoc] at hbytes
    have hdrop : pkt.bytes.drop reliableHeaderSize = header.bytes ++ (body ++ pkt.bytes.drop pkt.dataLen) := by
      rw [← hlength]
      exact (congrArg _ hbytes).trans List.drop_left
    exact MessageHeader.ofPacket_eq header hdrop

/-- Nothing is lost when the header is taken off. -/
theorem packet_received : (segment.received pkt).packet = pkt := by
  obtain ⟨frame, hframe, hdata⟩ := h.data_eq
  have hbytes := Packet.bytes_of_data hdata
  have hlength := length_header hframe segment.header.magicNum segment.header.seqNum
  have htake : pkt.bytes.take magicNumOffset = frame := by
    rw [← hframe]
    refine (congrArg _ hbytes).trans ?_
    rw [ReliableHeader.bytes, List.append_assoc, List.append_assoc]
    exact List.take_left
  have hlen : reliableHeaderSize ≤ pkt.dataLen := by
    rw [← Packet.length_data, hdata, List.length_append, hlength]
    exact Nat.le_add_right _ _
  have hdrop : pkt.bytes.drop reliableHeaderSize = segment.payload.data ++ pkt.bytes.drop pkt.dataLen := by
    rw [← hlength]
    exact (congrArg _ hbytes).trans List.drop_left
  obtain ⟨dataOff, bytes, dataLen, fits⟩ := pkt
  dsimp only [packet, received] at hbytes htake hlen hdrop ⊢
  simp only [htake, hlength, Packet.mk.injEq, Nat.add_sub_cancel, Nat.add_sub_cancel' hlen, hdrop, true_and,
    and_true]
  exact hbytes.symm

theorem length_header_received : (segment.received pkt).header.bytes.length = reliableHeaderSize := by
  obtain ⟨frame, rest, hframe, hbytes⟩ := h.bytes_eq
  apply length_header
  rw [hbytes, List.length_take, List.length_append, length_header hframe]
  exact min_eq_left (by rw [magicNumOffset, reliableHeaderSize]; omega)

end ArrivesAs

end Segment

/-! ## The receiving half of a connection -/

/-- The receiver is the receiving half of the connection. -/
structure Receiver.Mirrors (receiver : Receiver ι) (p2p : PeerToPeer N) : Prop where
  nextSeqNumToRecv : p2p.nextSeqNumToRecv = receiver.nextSeqNumToRecv
  nextSeqNumToRecvSnapshot : p2p.nextSeqNumToRecvSnapshot = receiver.nextSeqNumToRecvSnapshot
  errorCounter : p2p.errorCounter = receiver.errorCounter
  batch : p2p.batch = receiver.batch.map Held.pkt
  curMsg : p2p.curMsg = receiver.curMsg.erase

namespace Receiver.Mirrors

variable {receiver : Receiver ι} {p2p : PeerToPeer N}

/-- The sending half is not mirrored. -/
theorem of_sendQueue (h : receiver.Mirrors p2p) (sendQueue : SendQueue N Packet) :
    receiver.Mirrors { p2p with sendQueue } :=
  ⟨h.nextSeqNumToRecv, h.nextSeqNumToRecvSnapshot, h.errorCounter, h.batch, h.curMsg⟩

theorem recvOutOfSequence (h : receiver.Mirrors p2p) :
    receiver.recvOutOfSequence.Mirrors p2p.recvOutOfSequence := by
  unfold Receiver.recvOutOfSequence PeerToPeer.recvOutOfSequence
  rw [h.errorCounter]
  split
  · exact ⟨h.nextSeqNumToRecv, by rw [h.nextSeqNumToRecv], rfl, h.batch, h.curMsg⟩
  · exact ⟨h.nextSeqNumToRecv, h.nextSeqNumToRecvSnapshot, rfl, h.batch, h.curMsg⟩

variable {segment : Segment Packet} {reception : Reception ι}

variable (h : receiver.Mirrors p2p)

include h

theorem recvInSequence {held : Held ι} (harrives : segment.ArrivesAs held.pkt) {accepted : Receiver ι}
    (haccepted : receiver.recvInSequence held = some accepted) :
    ∃ p2p', p2p.recvInSequence (segment.received held.pkt) = some p2p' ∧ accepted.Mirrors p2p' := by
  have hnext : p2p.nextSeqNumToRecv + 1 = receiver.nextSeqNumToRecv + 1 := by rw [h.nextSeqNumToRecv]
  unfold Receiver.recvInSequence at haccepted
  unfold PeerToPeer.recvInSequence
  rw [harrives.packet_received, harrives.length_header_received]
  by_cases hempty : receiver.batch = []
  · have hempty' : p2p.batch = [] := by rw [h.batch, hempty, List.map_nil]
    have hadd := HeldMsg.batchAdd_map receiver.batch (held.adj (reliableHeaderSize + MessageHeader.size))
    rw [if_pos (by rw [hempty]; rfl)] at haccepted
    obtain ⟨batch, hbatch, hsome⟩ := bind_eq_some_iff.1 haccepted
    cases hsome
    rw [if_pos hempty', h.batch]
    rw [hbatch, Held.adj] at hadd
    rw [hadd]
    refine ⟨_, rfl, hnext, h.nextSeqNumToRecvSnapshot, rfl, rfl, ?_⟩
    dsimp only
    rw [h.curMsg]
    rfl
  · have hempty' : p2p.batch ≠ [] := by
      rw [h.batch]
      exact fun hnil ↦ hempty (List.map_eq_nil_iff.1 hnil)
    have hadd := HeldMsg.batchAdd_map receiver.batch (held.adj reliableHeaderSize)
    rw [if_neg (by rwa [List.isEmpty_iff])] at haccepted
    obtain ⟨batch, hbatch, hsome⟩ := bind_eq_some_iff.1 haccepted
    cases hsome
    rw [if_neg hempty', h.batch]
    rw [hbatch, Held.adj] at hadd
    rw [hadd]
    exact ⟨_, rfl, hnext, h.nextSeqNumToRecvSnapshot, rfl, rfl, h.curMsg⟩

theorem deliver {fuel : ℕ} (hreception : receiver.deliver fuel = some reception) :
    ∃ outcome p2p', p2p.deliver fuel = some (outcome, p2p') ∧ reception.receiver.Mirrors p2p' ∧
      outcome.message = reception.message.map HeldMsg.erase := by
  unfold Receiver.deliver at hreception
  unfold PeerToPeer.deliver
  rw [h.batch, h.curMsg, List.length_map, HeldMsg.erase_format]
  change ∃ outcome p2p', (if receiver.batch.length = receiver.curMsg.rmh.msgPktNum.toNat then _ else _) = _ ∧ _
  by_cases hcomplete : receiver.batch.length = receiver.curMsg.rmh.msgPktNum.toNat
  · rw [if_pos hcomplete] at hreception ⊢
    obtain ⟨⟨flag, msg⟩, hformat, hsome⟩ := bind_eq_some_iff.1 hreception
    rw [hformat]
    cases flag with
    | true | false =>
      cases hsome
      exact ⟨_, _, rfl, ⟨h.nextSeqNumToRecv, h.nextSeqNumToRecvSnapshot, h.errorCounter, rfl, rfl⟩, rfl⟩
  · rw [if_neg hcomplete] at hreception ⊢
    cases hreception
    exact ⟨_, _, rfl, h, rfl⟩

/-- `recv` does what it does in the model without identities. -/
theorem recv {held : Held ι} (harrives : segment.ArrivesAs held.pkt)
    (hmagic : segment.header.magicNum ≠ ackMagicNum) {fuel : ℕ}
    (hreception : receiver.recv fuel held = some reception) (currentNs : UInt64) :
    ∃ outcome p2p', p2p.recv fuel currentNs (segment.received held.pkt) = some (outcome, p2p') ∧
      reception.receiver.Mirrors p2p' ∧ outcome.message = reception.message.map HeldMsg.erase := by
  unfold Receiver.recv at hreception
  rw [harrives.read_magicNum, if_neg hmagic, harrives.read_seqNum] at hreception
  unfold PeerToPeer.recv
  rw [if_neg (show (segment.received held.pkt).header.magicNum ≠ ackMagicNum from hmagic), h.nextSeqNumToRecv]
  change ∃ outcome p2p', (if segment.header.seqNum ≠ receiver.nextSeqNumToRecv then _ else _) = _ ∧ _
  by_cases hseq : segment.header.seqNum = receiver.nextSeqNumToRecv
  · rw [if_neg (not_not.2 hseq)] at hreception ⊢
    obtain ⟨accepted, haccepted, hdeliver⟩ := bind_eq_some_iff.1 hreception
    obtain ⟨p2p', hp2p', hmirrors⟩ := h.recvInSequence harrives haccepted
    obtain ⟨outcome, p2p'', hdeliver', hmirrors'⟩ := hmirrors.deliver hdeliver
    refine ⟨outcome, p2p'', ?_, hmirrors'⟩
    rw [hp2p']
    exact hdeliver'
  · rw [if_pos hseq] at hreception ⊢
    cases hreception
    exact ⟨_, _, rfl, h.recvOutOfSequence, rfl⟩

end Receiver.Mirrors

open PeerToPeer

/-- The first packet starts with a header that has the number of packets, and the counts add up in any such run
with the same sub-message in front. -/
structure Announced (ι : Type) (pkts : List Packet) (header : MessageHeader) (body : List UInt8) : Prop where
  count : header.msgPktNum.toNat = pkts.length
  burst : pkts.length ≤ kMaxBurst
  first : ∃ first others, pkts = first :: others ∧ first.data = header.bytes ++ body
  counted : ∀ (held : Held ι) (others : List (Held ι)), held.pkt.data = body →
    others.length + 1 = pkts.length → WellCounted true (held :: others)

theorem Announced.pos {pkts : List Packet} {header : MessageHeader} {body : List UInt8}
    (h : Announced ι pkts header body) : 0 < pkts.length := by
  obtain ⟨first, others, rfl, -⟩ := h.first
  exact Nat.succ_pos _

theorem announced_cstruct {address : Address} {bytes : List UInt8} {pkt : Packet}
    (hpkt : (createCstructSubMsg bytes).prepend (address.header 1).bytes = some pkt) :
    Announced ι [pkt] (address.header 1)
      (littleEndian SubMessage.tagSize SubMessage.cstruct.tag ++ bytes) where
  count := rfl
  burst := show 1 ≤ kMaxBurst by decide
  first := by
    refine ⟨pkt, [], rfl, ?_⟩
    rw [Packet.data_prepend hpkt, createCstructSubMsg, Packet.data_alloc]
  counted := by
    intro held others hdata hlength
    have hnone : others = [] := List.eq_nil_of_length_eq_zero (Nat.succ.inj hlength)
    rw [hnone]
    exact .cstruct (SubMessage.ofPacket_eq .cstruct (Packet.bytes_of_data hdata)) .done

theorem announced_batch (address : Address) {first head : Packet} {others : List Packet}
    (hburst : (head :: others).length ≤ kMaxBurst)
    (hdata : first.data = (address.header (head :: others).length).bytes ++
      (tagged .binaryFlowState (others.length + 1) ++ head.data)) :
    Announced ι (first :: others) (address.header (head :: others).length)
      (tagged .binaryFlowState (others.length + 1) ++ head.data) where
  count := by
    rw [kMaxBurst] at hburst
    rw [Address.header, UInt16.toNat_ofNat', List.length_cons, List.length_cons] at *
    omega
  burst := hburst
  first := ⟨first, others, rfl, hdata⟩
  counted := by
    intro held rest hheld hlength
    rw [List.length_cons, kMaxBurst] at hburst
    obtain ⟨hkind, hcount, -⟩ := tagged_eq (by omega) hheld
    have hcounted := @WellCounted.flowState ι true held rest [] hkind (hcount.trans hlength.symm) .done
    rwa [List.append_nil] at hcounted

theorem announced_of_encode {request : Request} {pkts : List Packet} (h : request.encode = some pkts) :
    ∃ header body, Announced ι pkts header body := by
  cases request with
  | cstruct =>
    rw [Request.encode] at h
    obtain ⟨pkt, hpkt, rfl⟩ := map_eq_some_iff.1 h
    exact ⟨_, _, announced_cstruct hpkt⟩
  | batch address batch hburst hheadroom =>
    cases batch with
    | nil => cases h
    | cons head others =>
      obtain ⟨first, hfirst, hdata⟩ := exists_encode address (head :: others).length others
        (hheadroom head (List.mem_cons_self ..))
      rw [Request.encode, hfirst] at h
      cases h
      exact ⟨_, _, announced_batch address hburst hdata⟩

variable {packets : List (List Packet)} {wire : List (Segment Packet)} {index : ℕ}
  {segment : Segment Packet}

theorem announced_of_encodes {requests : List Request}
    (h : List.Forall₂ (fun request pkts ↦ Request.encode request = some pkts) requests packets) :
    ∀ pkts ∈ packets, ∃ header body, Announced ι pkts header body := by
  induction h with
  | nil => exact fun _ hmem ↦ absurd hmem List.not_mem_nil
  | cons hencode _ ih =>
    intro pkts hmem
    rcases List.mem_cons.1 hmem with rfl | hrest
    · exact announced_of_encode hencode
    · exact ih pkts hrest

namespace Receiver

variable {receiver : Receiver ι} {packets : List (List Packet)} {position : ℕ}

/-- The receiver has some of the packets of a message, but not all. -/
structure Begun (receiver : Receiver ι) (pkts : List Packet) : Prop where
  announced : ∃ body, Announced ι pkts receiver.curMsg.rmh body ∧
    ∃ held others, receiver.batch = held :: others ∧ held.pkt.data = body
  unfinished : receiver.batch.length < pkts.length

/-- The packets up to a position were accepted: those of some messages, and the first ones of the next. -/
def At (receiver : Receiver ι) (packets : List (List Packet)) (position : ℕ) : Prop :=
  ∃ before after, packets = before ++ after ∧ position = before.flatten.length + receiver.batch.length ∧
    (receiver.batch = [] ∨ ∃ pkts rest, after = pkts :: rest ∧ receiver.Begun pkts)

/-- The receiver expects the packet at its position, or has given up. -/
def Follows (receiver : Receiver ι) (packets : List (List Packet)) : Prop :=
  receiver.nextSeqNumToRecv = 0 ∧ receiver.batch = [] ∨
    ∃ position, receiver.At packets position ∧ receiver.nextSeqNumToRecv = 1 + UInt32.ofNat position

theorem At.append (h : receiver.At packets position) (more : List (List Packet)) :
    receiver.At (packets ++ more) position := by
  obtain ⟨before, after, rfl, hposition, hbatch⟩ := h
  refine ⟨before, after ++ more, List.append_assoc _ _ _, hposition, hbatch.imp_right ?_⟩
  rintro ⟨pkts, rest, rfl, hbegun⟩
  exact ⟨pkts, rest ++ more, rfl, hbegun⟩

theorem Follows.append (h : receiver.Follows packets) (more : List (List Packet)) :
    receiver.Follows (packets ++ more) :=
  h.imp_right fun ⟨position, hat, hnext⟩ ↦ ⟨position, hat.append more, hnext⟩

/-- Only the batch, the header and the expected number matter. -/
theorem Follows.of_same (h : receiver.Follows packets) {receiver' : Receiver ι}
    (hbatch : receiver'.batch = receiver.batch) (hrmh : receiver'.curMsg.rmh = receiver.curMsg.rmh)
    (hnext : receiver'.nextSeqNumToRecv = receiver.nextSeqNumToRecv) : receiver'.Follows packets := by
  rcases h with ⟨hzero, hempty⟩ | ⟨position, ⟨before, after, hpackets, hposition, hbegun⟩, hnext'⟩
  · exact .inl ⟨hnext.trans hzero, hbatch.trans hempty⟩
  · refine .inr ⟨position, ⟨before, after, hpackets, by rw [hbatch]; exact hposition, ?_⟩, hnext.trans hnext'⟩
    rw [hbatch]
    refine hbegun.imp_right ?_
    rintro ⟨pkts, rest, hafter, hannounced, hunfinished⟩
    exact ⟨pkts, rest, hafter, by rw [hbatch, hrmh]; exact hannounced, by rw [hbatch]; exact hunfinished⟩

theorem At.le_length (h : receiver.At packets position) : position ≤ packets.flatten.length := by
  obtain ⟨before, after, rfl, rfl, hempty | ⟨pkts, rest, rfl, hbegun⟩⟩ := h
  · rw [hempty, List.flatten_append, List.length_append, List.length_nil]
    omega
  · have hless := hbegun.unfinished
    rw [List.flatten_append, List.length_append, List.flatten_cons, List.length_append]
    omega

variable {segment : Segment Packet} {held : Held ι} {fuel : ℕ} {reception : Reception ι}

/-- The packet at the position is of the message begun, or starts the next. -/
theorem At.current (h : receiver.At packets position)
    (hannounced : ∀ pkts ∈ packets, ∃ header body, Announced ι pkts header body)
    (hpayload : packets.flatten[position]? = some segment.payload) (harrives : segment.ArrivesAs held.pkt) :
    ∃ before pkts rest body, packets = before ++ pkts :: rest ∧
      position = before.flatten.length + receiver.batch.length ∧
      Announced ι pkts (receiver.header held) body ∧ receiver.batch.length < pkts.length ∧
      ∃ first others, receiver.joined held = first :: others ∧ first.pkt.data = body := by
  obtain ⟨before, after, rfl, rfl, hempty | ⟨pkts, rest, rfl, hbegun⟩⟩ := h
  · rw [List.flatten_append, List.getElem?_append_right (Nat.le_add_right _ _), Nat.add_sub_cancel_left,
      hempty, List.length_nil] at hpayload
    cases after with
    | nil => cases hpayload
    | cons pkts rest =>
      obtain ⟨header, body, hpkts⟩ := hannounced pkts (by simp)
      obtain ⟨first, others, rfl, hfirst⟩ := hpkts.first
      cases hpayload
      obtain ⟨hbody, hheader⟩ := harrives.data_adj_first hfirst
      refine ⟨before, _, rest, body, rfl, rfl, ?_, ?_, ?_⟩
      · rw [Receiver.header, hempty, if_pos List.isEmpty_nil, hheader]
        exact hpkts
      · rw [hempty]
        exact Nat.succ_pos _
      · rw [joined, hempty, if_pos List.isEmpty_nil]
        exact ⟨_, [], rfl, hbody⟩
  · obtain ⟨body, hpkts, first, others, hbatch, hfirst⟩ := hbegun.announced
    refine ⟨before, pkts, rest, body, rfl, rfl, ?_, hbegun.unfinished, ?_⟩
    · rw [Receiver.header, hbatch]
      exact hpkts
    · rw [joined, hbatch]
      exact ⟨first, _, rfl, hfirst⟩

theorem recvInSequence_eq {accepted : Receiver ι} (h : receiver.recvInSequence held = some accepted) :
    accepted = { receiver with
      errorCounter := 0
      nextSeqNumToRecv := receiver.nextSeqNumToRecv + 1
      batch := receiver.joined held
      curMsg := { receiver.curMsg with rmh := receiver.header held } } := by
  rw [Receiver.recvInSequence] at h
  rw [joined, header]
  split at h
  next hempty =>
    obtain ⟨batch, hbatch, hsome⟩ := bind_eq_some_iff.1 h
    rw [batchAdd] at hbatch
    split at hbatch
    · cases hbatch
      cases hsome
      rw [if_pos hempty, if_pos hempty]
    · cases hbatch
  next hempty =>
    obtain ⟨batch, hbatch, hsome⟩ := bind_eq_some_iff.1 h
    rw [batchAdd] at hbatch
    split at hbatch
    · cases hbatch
      cases hsome
      rw [if_neg hempty, if_neg hempty]
    · cases hbatch

theorem recv_expected (hexpects : receiver.Expects held) (h : receiver.recv fuel held = some reception) :
    reception.receiver.nextSeqNumToRecv = receiver.nextSeqNumToRecv + 1 ∧
      ((receiver.joined held).length = (receiver.header held).msgPktNum.toNat ∧ reception.receiver.batch = [] ∨
        (receiver.joined held).length ≠ (receiver.header held).msgPktNum.toNat ∧
          reception.receiver.batch = receiver.joined held ∧
          reception.receiver.curMsg.rmh = receiver.header held) := by
  rw [Receiver.recv, if_neg hexpects.1, if_neg (not_not.2 hexpects.2)] at h
  obtain ⟨accepted, haccepted, hdeliver⟩ := bind_eq_some_iff.1 h
  rw [recvInSequence_eq haccepted, Receiver.deliver] at hdeliver
  split at hdeliver
  next hcomplete =>
    obtain ⟨⟨flag, msg⟩, -, hsome⟩ := bind_eq_some_iff.1 hdeliver
    cases flag <;> cases hsome <;> exact ⟨rfl, .inl ⟨hcomplete, rfl⟩⟩
  next hcomplete =>
    cases hdeliver
    exact ⟨rfl, .inr ⟨hcomplete, rfl, rfl⟩⟩

/-- Any other packet leaves the message alone. -/
theorem recv_unexpected (hexpects : ¬receiver.Expects held) (h : receiver.recv fuel held = some reception) :
    reception.receiver.batch = receiver.batch ∧ reception.receiver.curMsg = receiver.curMsg ∧
      reception.receiver.nextSeqNumToRecv = receiver.nextSeqNumToRecv := by
  rw [Receiver.recv] at h
  split at h
  · cases h
    exact ⟨rfl, rfl, rfl⟩
  next hack =>
    split at h
    · cases h
      dsimp only [Receiver.recvOutOfSequence]
      split <;> exact ⟨rfl, rfl, rfl⟩
    next hseq => exact absurd ⟨hack, not_not.1 hseq⟩ hexpects

/-- The packet at the position of the receiver has counts that add up. -/
theorem At.countsAddUp (h : receiver.At packets position)
    (hannounced : ∀ pkts ∈ packets, ∃ header body, Announced ι pkts header body)
    (hpayload : packets.flatten[position]? = some segment.payload) (harrives : segment.ArrivesAs held.pkt) :
    receiver.CountsAddUp true held := by
  intro _
  obtain ⟨before, pkts, rest, body, -, -, hpkts, -, first, others, hjoined, hfirst⟩ :=
    h.current hannounced hpayload harrives
  rw [hpkts.count]
  refine ⟨hpkts.pos, hpkts.burst, fun hcomplete ↦ ?_⟩
  rw [hjoined] at hcomplete ⊢
  exact hpkts.counted first others hfirst hcomplete

theorem At.recv (h : receiver.At packets position)
    (hannounced : ∀ pkts ∈ packets, ∃ header body, Announced ι pkts header body)
    (hpayload : packets.flatten[position]? = some segment.payload) (harrives : segment.ArrivesAs held.pkt)
    (hexpects : receiver.Expects held) (hrecv : receiver.recv fuel held = some reception) :
    reception.receiver.At packets (position + 1) := by
  obtain ⟨before, pkts, rest, body, rfl, rfl, hpkts, hless, first, others, hjoined, hfirst⟩ :=
    h.current hannounced hpayload harrives
  have hlength : (receiver.joined held).length = receiver.batch.length + 1 := by
    rw [joined, List.length_append, List.length_singleton]
  rcases (recv_expected hexpects hrecv).2 with ⟨hcomplete, hbatch⟩ | ⟨hcomplete, hbatch, hrmh⟩
  · rw [hpkts.count, hlength] at hcomplete
    refine ⟨before ++ [pkts], rest, by simp, ?_, .inl hbatch⟩
    rw [hbatch, List.flatten_append, List.length_append, List.flatten_singleton, ← hcomplete]
    rfl
  · rw [hpkts.count, hlength] at hcomplete
    refine ⟨before, pkts :: rest, rfl, by rw [hbatch, hlength]; rfl, .inr ⟨pkts, rest, rfl, ?_, ?_⟩⟩
    · rw [hbatch, hrmh]
      exact ⟨body, hpkts, first, others, hjoined, hfirst⟩
    · rw [hbatch, hlength]
      omega

end Receiver

/-- The packets on a wire carry the numbers of their places. -/
theorem PeerToPeer.InSequence.getElem {seqNum : UInt32} (h : InSequence seqNum wire)
    (hindex : wire[index]? = some segment) :
    segment.header.magicNum = msgMagicNum ∧ segment.header.seqNum = seqNum + UInt32.ofNat index := by
  induction wire generalizing seqNum index with
  | nil => cases hindex
  | cons _ _ ih =>
    obtain ⟨hmagic, hseq, hrest⟩ := h
    cases index with
    | zero =>
      cases hindex
      exact ⟨hmagic, by rw [hseq]; simp⟩
    | succ =>
      rw [← add_one_add_ofNat]
      exact ih hrest hindex

/-- Numbers that have not wrapped tell the places apart. -/
theorem ofNat_add_one_inj {position : ℕ} (hindex : index < 2 ^ 32) (hposition : position < 2 ^ 32)
    (h : 1 + UInt32.ofNat index = 1 + UInt32.ofNat position) : index = position := by
  have hnat := congrArg UInt32.toNat (UInt32.add_right_inj 1 |>.1 h)
  rwa [UInt32.toNat_ofNat', UInt32.toNat_ofNat', Nat.mod_eq_of_lt hindex, Nat.mod_eq_of_lt hposition] at hnat

theorem one_add_ofNat_ne_zero (hindex : index + 1 < 2 ^ 32) : 1 + UInt32.ofNat index ≠ 0 := by
  intro h
  have hnat := congrArg UInt32.toNat h
  rw [UInt32.toNat_add, UInt32.toNat_ofNat', Nat.mod_eq_of_lt (show index < 2 ^ 32 by omega)] at hnat
  change (1 + index) % 2 ^ 32 = 0 at hnat
  rw [Nat.mod_eq_of_lt (by omega)] at hnat
  omega

/-- A packet from the wire has counts that add up, and the receiver keeps following. -/
theorem Receiver.Follows.recv {receiver : Receiver ι} (h : receiver.Follows packets)
    (hannounced : ∀ pkts ∈ packets, ∃ header body, Announced ι pkts header body)
    (hsequence : InSequence 1 wire) (hwire : wire.map Segment.payload = packets.flatten)
    (hcount : wire.length < 2 ^ 32) (hindex : wire[index]? = some segment) {held : Held ι}
    (harrives : segment.ArrivesAs held.pkt) :
    receiver.CountsAddUp true held ∧
      ∀ fuel reception, receiver.recv fuel held = some reception → reception.receiver.Follows packets := by
  obtain ⟨hmagic, hseq⟩ := hsequence.getElem hindex
  have hlt := (List.getElem?_eq_some_iff.1 hindex).1
  by_cases hexpects : receiver.Expects held
  · have hnext : 1 + UInt32.ofNat index = receiver.nextSeqNumToRecv := by
      rw [← hseq, ← harrives.read_seqNum]
      exact hexpects.2
    rcases h with ⟨hzero, -⟩ | ⟨position, hat, hposition⟩
    · exact absurd (hnext.trans hzero) (one_add_ofNat_ne_zero (by omega))
    · have hle := hat.le_length
      rw [← hwire, List.length_map] at hle
      have hplace : index = position := ofNat_add_one_inj (by omega) (by omega) (hnext.trans hposition)
      have hpayload : packets.flatten[position]? = some segment.payload := by
        rw [← hplace, ← hwire, List.getElem?_map, hindex]
        rfl
      refine ⟨hat.countsAddUp hannounced hpayload harrives, fun fuel reception hrecv ↦ .inr ⟨position + 1, ?_, ?_⟩⟩
      · exact hat.recv hannounced hpayload harrives hexpects hrecv
      · rw [(recv_expected hexpects hrecv).1, hposition, UInt32.ofNat_add, ← UInt32.add_assoc]
        rfl
  · refine ⟨fun hexpected ↦ absurd hexpected hexpects, fun fuel reception hrecv ↦ ?_⟩
    obtain ⟨hbatch, hmsg, hnext⟩ := recv_unexpected hexpects hrecv
    exact h.of_same hbatch (by rw [hmsg]) hnext

end

end NfvActor.Reliable
