import Mathlib.Tactic
import NfvActor.Reliable.Framing

/-!
# Flow states together with a data packet

The third overload of `reliable_send` puts a data packet behind the flow states. A packet over the cutting
threshold is followed by one with the excess, and the receiver appends the two. But the first is not shortened
when it is cut, and what comes out has the excess twice.
-/

namespace NfvActor.Reliable

namespace PeerToPeer

variable {N : ℕ}

variable {pkt dpPkt head : Packet} {rest : List UInt8} {msg : SingleMsg} {others : List Packet}
  {pushed : List (Segment Packet)}

theorem exists_prependTag (kind : SubMessage) (count : ℕ) (h : SubMessage.tagSize + 1 ≤ pkt.dataOff) :
    ∃ pkt', prependTag kind count pkt = some pkt' ∧ pkt'.data = tagged kind count ++ pkt.data ∧
      pkt'.dataOff = pkt.dataOff - (SubMessage.tagSize + 1) := by
  have hone : [UInt8.ofNat count].length ≤ pkt.dataOff := by
    rw [List.length_singleton]
    omega
  obtain ⟨counted, hcounted, hoff⟩ := Packet.exists_prepend hone
  rw [List.length_singleton] at hoff
  have htag : (littleEndian SubMessage.tagSize kind.tag).length ≤ counted.dataOff := by
    rw [length_littleEndian, hoff]
    omega
  obtain ⟨pkt', hpkt', hoff'⟩ := Packet.exists_prepend htag
  rw [length_littleEndian] at hoff'
  refine ⟨pkt', ?_, ?_, by omega⟩
  · rw [prependTag, hcounted]
    exact hpkt'
  · rw [Packet.data_prepend hpkt', Packet.data_prepend hcounted, tagged, List.append_assoc]

theorem format_packet (fuel : ℕ) (h : pkt.data = tagged .packet 1 ++ rest) : msg.format (fuel + 1) [pkt] =
      some (true, { msg with rawPkt := some (pkt.adj (SubMessage.tagSize + 1)) }) := by
  obtain ⟨hkind, hcount, -⟩ := tagged_eq (by decide) h
  rw [SingleMsg.format, hkind]
  dsimp only
  rw [hcount]
  cases fuel <;> rfl

/-- Two packets are glued together, if the first has room behind its data. -/
theorem format_packet_cut (fuel : ℕ) {supplement : Packet} (hgarbage : msg.garbage.length < kMaxBurst)
    (h : pkt.data = tagged .packet 2 ++ rest) :
    msg.format (fuel + 1) [pkt, supplement] =
      ((pkt.adj (SubMessage.tagSize + 1)).append supplement.data).map fun whole ↦
        (true, { msg with rawPkt := some whole, garbage := msg.garbage ++ [supplement] }) := by
  obtain ⟨hkind, hcount, -⟩ := tagged_eq (by decide) h
  rw [SingleMsg.format, hkind]
  dsimp only
  rw [hcount, SingleMsg.addRawPacket, if_pos rfl]
  cases (pkt.adj (SubMessage.tagSize + 1)).append supplement.data with
  | none => rfl
  | some =>
    have hadd : batchAdd msg.garbage supplement = some (msg.garbage ++ [supplement]) := by
      rw [batchAdd, if_pos hgarbage]
    simp only [Option.bind_eq_bind, Option.bind_some, hadd, Option.map_some]
    cases fuel <;> rfl

/-- The bytes of the data packet that go into a second packet. -/
def excess (dpPkt : Packet) : List (List UInt8) :=
  if pktSubMsgCuttingThresh < dpPkt.dataLen then [dpPkt.data.drop pktSubMsgCuttingThresh] else []

theorem totalPktNum_eq (fsStateBatch : List Packet) (dpPkt : Packet) :
    totalPktNum fsStateBatch dpPkt = fsStateBatch.length + 1 + (excess dpPkt).length := by
  unfold totalPktNum excess
  split <;> rfl

theorem exists_createPacketSubMsg (h : SubMessage.tagSize + 1 ≤ dpPkt.dataOff) :
    ∃ first supplements, createPacketSubMsg dpPkt true = some (first :: supplements) ∧
      first.data = tagged .packet ((excess dpPkt).length + 1) ++ dpPkt.data ∧
      supplements.map Packet.data = excess dpPkt := by
  unfold createPacketSubMsg excess
  split
  · obtain ⟨first, hfirst, hdata, -⟩ := exists_prependTag .packet 2 h
    refine ⟨first, [Packet.alloc (Packet.headroom + pktMsgOffset) (dpPkt.data.drop pktSubMsgCuttingThresh)],
      ?_, hdata, ?_⟩
    · rw [if_pos rfl, hfirst]
      rfl
    · rw [List.map_singleton, Packet.data_alloc]
  · obtain ⟨first, hfirst, hdata, -⟩ := exists_prependTag .packet 1 h
    refine ⟨first, [], ?_, hdata, rfl⟩
    rw [hfirst]
    rfl

/-- What the packets of a message of flow states and a data packet hold. -/
def carried (address : Address) (head : Packet) (others : List Packet) (dpPkt : Packet) : List (List UInt8) :=
  ((address.header (totalPktNum (head :: others) dpPkt)).bytes ++
      (tagged .binaryFlowState (others.length + 1) ++ head.data)) ::
    (others.map Packet.data ++ (tagged .packet ((excess dpPkt).length + 1) ++ dpPkt.data) :: excess dpPkt)

theorem exists_encode (address : Address) (count : ℕ) (others : List Packet) (h : pktMsgOffset ≤ head.dataOff) :
    ∃ first, (encodeBinaryFsSubMsg (head :: others)).bind (prependHeader (address.header count)) =
        some (first :: others) ∧
      first.data = (address.header count).bytes ++ (tagged .binaryFlowState (others.length + 1) ++ head.data) := by
  have hsizes : MessageHeader.size + (SubMessage.tagSize + 1) ≤ pktMsgOffset := by decide
  obtain ⟨encoded, hencoded, hdata, hoff⟩ :=
    exists_prependTag .binaryFlowState (others.length + 1) (show SubMessage.tagSize + 1 ≤ head.dataOff by omega)
  have hheader : (address.header count).bytes.length ≤ encoded.dataOff := by
    rw [MessageHeader.length_bytes, hoff]
    omega
  obtain ⟨first, hfirst, -⟩ := Packet.exists_prepend hheader
  refine ⟨first, ?_, ?_⟩
  · rw [encodeBinaryFsSubMsg, hencoded]
    change prependHeader (address.header count) (encoded :: others) = _
    rw [prependHeader, hfirst]
    rfl
  · rw [Packet.data_prepend hfirst, hdata]

/-- A message for which there is room is pushed as a whole. -/
theorem exists_reliableSendReplication (hN : ValidSize N) {p2p : PeerToPeer N} (hwf : p2p.sendQueue.WellFormed)
    (address : Address) (hhead : pktMsgOffset ≤ head.dataOff) (hdp : pktMsgOffset ≤ dpPkt.dataOff)
    (hroom : totalPktNum (head :: others) dpPkt ≤ p2p.sendQueue.peekRemainingSize) :
    ∃ p2p' pushed, p2p.reliableSendReplication address (head :: others) dpPkt true =
        some (totalPktNum (head :: others) dpPkt, p2p') ∧
      p2p'.sendQueue.contents = p2p.sendQueue.contents ++ pushed ∧
      InSequence p2p.sendQueue.nextSeqNum pushed ∧
      (pushed.map fun pkt ↦ pkt.payload.data) = carried address head others dpPkt := by
  have hsize := hwf.size_le
  obtain ⟨dpFirst, supplements, hcreate, hdpFirst, hsupplements⟩ :=
    exists_createPacketSubMsg (show SubMessage.tagSize + 1 ≤ dpPkt.dataOff from le_trans (by decide) hdp)
  obtain ⟨first, hencode, hfirst⟩ := exists_encode address (totalPktNum (head :: others) dpPkt) others hhead
  obtain ⟨encoded, hencoded, hprepend⟩ := Option.bind_eq_some_iff.1 hencode
  have hcount : (head :: others).length + (dpFirst :: supplements).length =
      totalPktNum (head :: others) dpPkt := by
    rw [totalPktNum_eq, ← hsupplements, List.length_map]
    simp only [List.length_cons]
    omega
  have hfit : (first :: others).length + (dpFirst :: supplements).length + p2p.sendQueue.curSize ≤ N := by
    rw [SendQueue.peekRemainingSize, ← hcount, List.length_cons] at hroom
    rw [List.length_cons]
    omega
  have hfit' : ((first :: others) ++ dpFirst :: supplements).length + p2p.sendQueue.curSize ≤ N := by
    rw [List.length_append]
    exact hfit
  obtain ⟨pushed, hcontents, hpayload, hseq, -, -⟩ := foldl_push_spec hN _ hwf hfit'
  refine ⟨p2p.pushAll ((first :: others) ++ dpFirst :: supplements), pushed, ?_, ?_, hseq, ?_⟩
  · rw [reliableSendReplication, if_neg (not_lt.2 hroom), hcreate]
    change (if dpFirst :: supplements = [] then some (0, p2p) else
      (encodeBinaryFsSubMsg (head :: others)).bind _) = _
    rw [if_neg (List.cons_ne_nil _ _), hencoded, hcount]
    change (prependHeader _ encoded).bind _ = _
    rw [hprepend, pushAll_append hN hwf hfit]
    rfl
  · rw [pushAll, SendQueue.pushBatch, if_neg (not_lt.2 hfit')]
    exact hcontents
  · have hdata : (pushed.map fun pkt ↦ pkt.payload.data) = (pushed.map Segment.payload).map Packet.data := by
      rw [List.map_map]
      rfl
    rw [hdata, hpayload, carried, List.map_append, List.map_cons, List.map_cons, hfirst, hdpFirst, hsupplements]
    rfl

/-! ## Receiving -/

theorem inSequence_congr {sent received : List (Segment Packet)} {seqNum : UInt32}
    (h : received.map Segment.header = sent.map Segment.header) (hseq : InSequence seqNum sent) :
    InSequence seqNum received := by
  induction sent generalizing received seqNum with
  | nil =>
    rw [List.map_eq_nil_iff.1 h]
    trivial
  | cons _ _ ih =>
    obtain ⟨pkt', rest', rfl, hheader, hrest⟩ := List.map_eq_cons_iff.1 h
    rw [InSequence, hheader]
    exact ⟨hseq.1, hseq.2.1, ih hrest hseq.2.2⟩

/-- A message is returned when its packets are well formed. -/
theorem completed_eq_some_iff {answers : ℕ} {accepted : PeerToPeer N} {formatted : Option (Bool × SingleMsg)} :
    (∃ p2p', completed answers accepted formatted = some (List.replicate answers none ++ [some msg], p2p')) ↔
      formatted = some (true, msg) := by
  constructor
  · rintro ⟨p2p', h⟩
    obtain ⟨⟨flag, msg'⟩, hformatted, heq⟩ := Option.map_eq_some_iff.1 h
    have hlast := List.append_cancel_left (congrArg Prod.fst heq)
    cases flag with
    | false => simp at hlast
    | true =>
      obtain rfl : msg' = msg := by simpa using hlast
      exact hformatted
  · rintro rfl
    exact ⟨_, rfl⟩

/-- A message that holds the flow states and the data packet, byte by byte. -/
def Reproduces (msg : SingleMsg) (fsStateBatch : List Packet) (dpPkt : Packet) : Prop :=
  msg.fsMsgBatch.map Packet.data = fsStateBatch.map Packet.data ∧ msg.rawPkt.map Packet.data = some dpPkt.data

/-- What the formatting loop makes of the packets of a message. -/
theorem format_carried (fuel : ℕ) (msg : SingleMsg) (hfs : msg.fsMsgBatch = []) (hgarbage : msg.garbage = [])
    {first dpFirst : Packet} {others' supplements : List Packet} (hburst : others.length + 2 ≤ kMaxBurst)
    (hfirst : first.data = tagged .binaryFlowState (others.length + 1) ++ head.data)
    (hothers : others'.map Packet.data = others.map Packet.data)
    (hdpFirst : dpFirst.data = tagged .packet ((excess dpPkt).length + 1) ++ dpPkt.data)
    (hsupplements : supplements.map Packet.data = excess dpPkt) :
    (∃ msg', msg.format (fuel + 2) (first :: (others' ++ dpFirst :: supplements)) = some (true, msg') ∧
      Reproduces msg' (head :: others) dpPkt) ↔ dpPkt.dataLen ≤ pktSubMsgCuttingThresh := by
  have hlength : others'.length = others.length := by
    simpa only [List.length_map] using congrArg List.length hothers
  have hcount : others.length + 1 < 256 := by
    rw [kMaxBurst] at hburst
    omega
  have hformat := format_flowState_append (fuel + 1) hfs hgarbage (dpFirst :: supplements)
    (by rw [hlength]; omega) (by rw [hlength]; exact hfirst)
  have hstates : (first.adj (SubMessage.tagSize + 1) :: others').map Packet.data =
      (head :: others).map Packet.data := by
    rw [List.map_cons, List.map_cons, hothers, (tagged_eq hcount hfirst).2.2]
  rw [hformat]
  rcases le_or_gt dpPkt.dataLen pktSubMsgCuttingThresh with hshort | hlong
  · have hnone : excess dpPkt = [] := if_neg (not_lt.2 hshort)
    rw [hnone] at hsupplements hdpFirst
    rw [List.map_eq_nil_iff.1 hsupplements, format_packet fuel hdpFirst]
    refine ⟨fun _ ↦ hshort, fun _ ↦ ⟨_, rfl, hstates, ?_⟩⟩
    rw [Option.map_some, (tagged_eq (by decide) hdpFirst).2.2]
  · have hone : excess dpPkt = [dpPkt.data.drop pktSubMsgCuttingThresh] := if_pos hlong
    rw [hone] at hsupplements hdpFirst
    obtain ⟨supplement, hsupplement, hdata⟩ := List.map_eq_singleton_iff.1 hsupplements
    have hroom : (first.adj (SubMessage.tagSize + 1) :: others').length < kMaxBurst := by
      rw [List.length_cons, hlength]
      omega
    rw [hsupplement, format_packet_cut fuel hroom hdpFirst]
    refine ⟨fun hformatted ↦ ?_, fun h ↦ absurd h (not_le.2 hlong)⟩
    obtain ⟨msg', hmsg, hreproduces⟩ := hformatted
    obtain ⟨whole, hwhole, heq⟩ := Option.map_eq_some_iff.1 hmsg
    cases heq
    have hraw : whole.data = dpPkt.data := Option.some.inj hreproduces.2
    rw [Packet.data_append hwhole, (tagged_eq (by simp) hdpFirst).2.2, hdata] at hraw
    have htwice := congrArg List.length hraw
    rw [List.length_append, List.length_drop, Packet.length_data] at htwice
    omega

/-- Receiving the packets of a message, in whatever buffers they arrive. -/
theorem receiveAll_carried {fuel : ℕ} {receiver : PeerToPeer N} {seqNum : UInt32}
    (hidle : receiver.Idle seqNum) {address : Address} {arrivals : List (Segment Packet × UInt64)}
    (hburst : totalPktNum (head :: others) dpPkt ≤ kMaxBurst)
    (hheaders : (arrivals.map fun arrival ↦ arrival.1.header) = pushed.map Segment.header)
    (hdata : (arrivals.map fun arrival ↦ arrival.1.payload.data) = carried address head others dpPkt)
    (hseq : InSequence seqNum pushed) :
    (∃ msg receiver', receiveAll (fuel + 2) receiver arrivals =
        some (List.replicate (totalPktNum (head :: others) dpPkt - 1) none ++ [some msg], receiver') ∧
      Reproduces msg (head :: others) dpPkt) ↔ dpPkt.dataLen ≤ pktSubMsgCuttingThresh := by
  have htotal := totalPktNum_eq (head :: others) dpPkt
  obtain ⟨first, rest, rfl, hfirst, hrest⟩ := List.map_eq_cons_iff.1 hdata
  obtain ⟨states, behind, rfl, hstates, hbehind⟩ := List.map_eq_append_iff.1 hrest
  obtain ⟨dpFirst, supplements, rfl, hdpFirst, hsupplements⟩ := List.map_eq_cons_iff.1 hbehind
  have hstatesLength : states.length = others.length := by
    simpa only [List.length_map] using congrArg List.length hstates
  have hsupplementsLength : supplements.length = (excess dpPkt).length := by
    simpa only [List.length_map] using congrArg List.length hsupplements
  have hlength : (states ++ dpFirst :: supplements).length + 1 = totalPktNum (head :: others) dpPkt := by
    rw [htotal, List.length_append, List.length_cons, List.length_cons, hstatesLength, hsupplementsLength]
    omega
  have hseq' : InSequence seqNum ((first :: (states ++ dpFirst :: supplements)).map Prod.fst) := by
    apply inSequence_congr _ hseq
    rw [List.map_map]
    exact hheaders
  have hnum : (states ++ dpFirst :: supplements).length + 1 =
      (address.header (totalPktNum (head :: others) dpPkt)).msgPktNum.toNat := by
    rw [hlength, Address.header, UInt16.toNat_ofNat']
    rw [kMaxBurst] at hburst
    omega
  obtain ⟨accepted, -, hall⟩ := receiveAll_message (fuel + 2) hidle hfirst hnum
    (hlength ▸ hburst) hseq'
  rw [List.map_append, List.map_cons] at hall
  have hburst' : others.length + 2 ≤ kMaxBurst := by
    rw [htotal, List.length_cons] at hburst
    omega
  have hformat := format_carried fuel { receiver.curMsg with
      rmh := address.header (totalPktNum (head :: others) dpPkt) } hidle.fsMsgBatch hidle.garbage hburst'
    (first.1.data_adj_first hfirst) ((map_data_strip states).trans hstates)
    ((data_strip dpFirst.1).trans hdpFirst) ((map_data_strip supplements).trans hsupplements)
  have hanswers : totalPktNum (head :: others) dpPkt - 1 = (states ++ dpFirst :: supplements).length := by
    omega
  rw [hanswers, hall, ← hformat]
  constructor
  · rintro ⟨msg, receiver', hreceived, hreproduces⟩
    exact ⟨msg, completed_eq_some_iff.1 ⟨receiver', hreceived⟩, hreproduces⟩
  · rintro ⟨msg, hmsg, hreproduces⟩
    obtain ⟨receiver', hreceived⟩ := completed_eq_some_iff.2 hmsg
    exact ⟨msg, receiver', hreceived, hreproduces⟩

/-- The bytes of the data packet in the packets behind the flow states, the first with tag and count. -/
def dataPacketBytes : List (Segment Packet) → List ℕ
  | [] => []
  | first :: rest =>
    (first.payload.dataLen - (SubMessage.tagSize + 1)) :: rest.map fun pkt ↦ pkt.payload.dataLen

theorem dataPacketBytes_eq {address : Address}
    (h : (pushed.map fun pkt ↦ pkt.payload.data) = carried address head others dpPkt) :
    dataPacketBytes (pushed.drop (others.length + 1)) = dpPkt.dataLen :: (excess dpPkt).map List.length := by
  obtain ⟨first, rest, rfl, -, hrest⟩ := List.map_eq_cons_iff.1 h
  obtain ⟨states, behind, rfl, hstates, hbehind⟩ := List.map_eq_append_iff.1 hrest
  obtain ⟨dpFirst, supplements, rfl, hdpFirst, hsupplements⟩ := List.map_eq_cons_iff.1 hbehind
  have hlength : states.length = others.length := by
    simpa only [List.length_map] using congrArg List.length hstates
  rw [List.drop_succ_cons, ← hlength, List.drop_left, dataPacketBytes, ← hsupplements, List.map_map,
    ← Packet.length_data, hdpFirst, List.length_append, length_tagged, Nat.add_sub_cancel_left,
    Packet.length_data]
  simp

/-- For flow states and a data packet with room, whatever buffers the packets arrive in: the message reproduces
both, and no packet carries more than the threshold of the data packet, exactly when the data packet does not
have to be cut. -/
theorem state_and_packet_round_trip (hN : ValidSize N) {sender receiver : PeerToPeer N}
    (hwf : sender.sendQueue.WellFormed) (hidle : receiver.Idle sender.sendQueue.nextSeqNum)
    (address : Address) {fsStateBatch : List Packet} {dpPkt : Packet} (hstates : fsStateBatch ≠ [])
    (hheadroom : ∀ pkt ∈ dpPkt :: fsStateBatch, pktMsgOffset ≤ pkt.dataOff)
    (hburst : totalPktNum fsStateBatch dpPkt ≤ kMaxBurst)
    (hroom : totalPktNum fsStateBatch dpPkt ≤ sender.sendQueue.peekRemainingSize) {fuel : ℕ}
    (hfuel : 2 ≤ fuel) :
    ∃ sender' pushed, sender.reliableSendReplication address fsStateBatch dpPkt true =
        some (totalPktNum fsStateBatch dpPkt, sender') ∧
      sender'.sendQueue.contents = sender.sendQueue.contents ++ pushed ∧
      (∀ arrivals : List (Segment Packet × UInt64),
        (arrivals.map fun arrival ↦ arrival.1.header) = pushed.map Segment.header →
        (arrivals.map fun arrival ↦ arrival.1.payload.data) = (pushed.map fun pkt ↦ pkt.payload.data) →
        ((∃ msg receiver', receiveAll fuel receiver arrivals =
            some (List.replicate (totalPktNum fsStateBatch dpPkt - 1) none ++ [some msg], receiver') ∧
          Reproduces msg fsStateBatch dpPkt) ↔ dpPkt.dataLen ≤ pktSubMsgCuttingThresh)) ∧
      ((∀ count ∈ dataPacketBytes (pushed.drop fsStateBatch.length), count ≤ pktSubMsgCuttingThresh) ↔
        dpPkt.dataLen ≤ pktSubMsgCuttingThresh) := by
  obtain ⟨rounds, rfl⟩ := Nat.exists_eq_add_of_le' hfuel
  cases fsStateBatch with
  | nil => exact absurd rfl hstates
  | cons head =>
    obtain ⟨sender', pushed, hsend, hcontents, hseq, hcarried⟩ := exists_reliableSendReplication hN hwf address
      (hheadroom head (by simp)) (hheadroom dpPkt (by simp)) hroom
    refine ⟨sender', pushed, hsend, hcontents, fun arrivals hheaders hdata ↦ ?_, ?_⟩
    · exact receiveAll_carried hidle hburst hheaders (hdata.trans hcarried) hseq
    · rw [List.length_cons, dataPacketBytes_eq hcarried]
      constructor
      · intro h
        exact h _ List.mem_cons_self
      · intro hshort count hcount
        rw [excess, if_neg (not_lt.2 hshort)] at hcount
        rw [List.mem_singleton.1 hcount]
        exact hshort

/-- One packet of flow state in front of a data packet of three bytes. -/
def oneState : List Packet := [Packet.ofBytes 128 [0xA1]]

def shortPacket : Packet := Packet.ofBytes 128 [1, 2, 3]

/-- The endpoints of a new connection. -/
def newEndpoint : PeerToPeer 8 :=
  .init 2 0 [] 0 (.init (fun _ ↦ ⟨⟨[], 0, 0⟩, Packet.ofBytes 0 []⟩) (fun _ ↦ 0) (fun _ ↦ []))
    ⟨2, ⟨0, 0, 0, 0, 0⟩, none, [], none, []⟩

theorem state_and_packet_round_trip_short : ∃ sender' pushed,
    newEndpoint.reliableSendReplication ⟨1, 2, 3, 4⟩ oneState shortPacket true = some (2, sender') ∧
      sender'.sendQueue.contents = pushed ∧
      ∃ msg receiver', receiveAll 2 newEndpoint (pushed.map fun pkt ↦ (pkt, 0)) =
          some ([none, some msg], receiver') ∧ Reproduces msg oneState shortPacket := by
  obtain ⟨sender', pushed, hsend, hcontents, hreceive, -⟩ := state_and_packet_round_trip
    (⟨⟨3, rfl⟩, by decide⟩ : ValidSize 8) (SendQueue.wellFormed_init ⟨⟨3, rfl⟩, by decide⟩ _ _ _)
    (⟨rfl, rfl, rfl, rfl⟩ : newEndpoint.Idle newEndpoint.sendQueue.nextSeqNum) ⟨1, 2, 3, 4⟩
    (show oneState ≠ [] by decide) (by decide : ∀ pkt ∈ shortPacket :: oneState, pktMsgOffset ≤ pkt.dataOff)
    (by decide) (by decide) (le_refl 2)
  refine ⟨sender', pushed, hsend, hcontents, ?_⟩
  exact (hreceive (pushed.map fun pkt ↦ (pkt, 0)) (by rw [List.map_map]; rfl)
    (by rw [List.map_map]; rfl)).2 (by decide)

/-- A data packet of one byte more than fits. -/
def longPacket : Packet := Packet.alloc 128 (List.replicate 1458 0)

/-- The packet of 1458 bytes comes out with 1459, and one packet carried all of it. -/
theorem cut_packet_has_excess_twice : ∃ sender' answers receiver',
    newEndpoint.reliableSendReplication ⟨1, 2, 3, 4⟩ oneState longPacket true = some (3, sender') ∧
      receiveAll 2 newEndpoint (sender'.sendQueue.contents.map fun pkt ↦ (pkt, 0)) =
        some (answers, receiver') ∧
      (answers.filterMap id).map (fun msg ↦ msg.rawPkt.map Packet.dataLen) = [some 1459] ∧
      dataPacketBytes (sender'.sendQueue.contents.drop 1) = [1458, 1] := by
  obtain ⟨⟨count, sender'⟩, hsend, hcount, ⟨answers, receiver'⟩, hreceive, hfacts⟩ :
      ∃ result ∈ newEndpoint.reliableSendReplication ⟨1, 2, 3, 4⟩ oneState longPacket true, result.1 = 3 ∧
      ∃ received ∈ receiveAll 2 newEndpoint (result.2.sendQueue.contents.map fun pkt ↦ (pkt, 0)),
        (received.1.filterMap id).map (fun msg ↦ msg.rawPkt.map Packet.dataLen) = [some 1459] ∧
        dataPacketBytes (result.2.sendQueue.contents.drop 1) = [1458, 1] := by decide +kernel
  obtain rfl : count = 3 := hcount
  exact ⟨sender', answers, receiver', hsend, hreceive, hfacts⟩

end PeerToPeer

end NfvActor.Reliable
