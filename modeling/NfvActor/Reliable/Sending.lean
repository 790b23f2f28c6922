import Mathlib.Tactic
import NfvActor.Reliable.SendListSafety
import NfvActor.Reliable.StateAndPacket

/-!
# A message is sent as a whole or not at all

`reliable_send` edits the packets it is given in place, pushes them and leaves credit on the send list. It
checks the room in the queue before and ignores what the pushes return. When it returns `false` the packets of
the caller are as they were, and so is everything else.
-/

namespace NfvActor.Reliable

open Foundation
open Function
open Option (bind_eq_some_iff map_eq_some_iff)

/-- What the three overloads of `reliable_send` are given. -/
inductive Submission
  | cstruct (address : PeerToPeer.Address) (bytes : List UInt8)
  | batch (address : PeerToPeer.Address) (pkts : List Packet)
  | replication (address : PeerToPeer.Address) (fsStateBatch : List Packet) (dpPkt : Packet)

/-- The return value of `reliable_send`, the credit it gives, the caller's packets, and the sending end. -/
structure Submitted (N : ℕ) where
  accepted : Bool
  count : ℕ
  callerPackets : List Packet
  p2p : PeerToPeer N

namespace Submission

open PeerToPeer

/-- The packets that the caller passes. -/
def callerPackets : Submission → List Packet
  | cstruct _ _ => []
  | batch _ pkts => pkts
  | replication _ fsStateBatch dpPkt => fsStateBatch ++ [dpPkt]

/-- The number of packets of the message. -/
def size : Submission → ℕ
  | cstruct _ _ => 1
  | batch _ pkts => pkts.length
  | replication _ fsStateBatch dpPkt => totalPktNum fsStateBatch dpPkt

/-- What the packets of the message hold. -/
def contents : Submission → List (List UInt8)
  | cstruct address bytes =>
    [(address.header 1).bytes ++ (littleEndian SubMessage.tagSize SubMessage.cstruct.tag ++ bytes)]
  | batch _ [] => []
  | batch address (head :: others) =>
    ((address.header (others.length + 1)).bytes ++
      (tagged .binaryFlowState (others.length + 1) ++ head.data)) :: others.map Packet.data
  | replication _ [] _ => []
  | replication address (head :: others) dpPkt => carried address head others dpPkt

/-- The assertion of `encode_binary_fs_sub_msg`: there is a packet of flow state. -/
def HasState : Submission → Prop
  | cstruct _ _ => True
  | batch _ pkts => pkts ≠ []
  | replication _ fsStateBatch _ => fsStateBatch ≠ []

theorem length_contents {submission : Submission} (h : submission.HasState) :
    submission.contents.length = submission.size := by
  cases submission with
  | cstruct => rfl
  | batch _ pkts =>
    cases pkts with
    | nil => rfl
    | cons => simp [contents, size]
  | replication _ fsStateBatch =>
    cases fsStateBatch with
    | nil => exact absurd rfl h
    | cons =>
      simp only [contents, size, carried, totalPktNum_eq, List.length_cons, List.length_append, List.length_map]
      omega

end Submission

namespace PeerToPeer

variable {N : ℕ}

/-- The packets of a message in the queue, with their headers. -/
def framed (p2p : PeerToPeer N) (message : List Packet) : List Packet :=
  message.mapIdx fun index pkt ↦
    (p2p.sendQueue.formatSendPacket pkt (p2p.sendQueue.nextSeqNum + UInt32.ofNat index)).packet

/-- `create_packet_sub_msg` with the packet as it leaves it. -/
def cutPacket (pkt : Packet) (allocOk : Bool) : Option (Packet × List Packet) :=
  if pktSubMsgCuttingThresh < pkt.dataLen then
    if allocOk then do
      let supplement := Packet.alloc (Packet.headroom + pktMsgOffset) (pkt.data.drop pktSubMsgCuttingThresh)
      let first ← prependTag .packet 2 pkt
      some (first, [first, supplement])
    else
      some (pkt, [])
  else do
    let first ← prependTag .packet 1 pkt
    some (first, [first])

/-- The three overloads of `reliable_send`, with the packets of the caller. -/
def submit (p2p : PeerToPeer N) (allocOk : Bool) : Submission → Option (Submitted N)
  | .cstruct address bytes =>
    if p2p.isConnectionUp = false ∨ p2p.sendQueue.peekRemainingSize = 0 then
      some ⟨false, 0, [], p2p⟩
    else if allocOk then do
      let pkt ← (createCstructSubMsg bytes).prepend (address.header 1).bytes
      some ⟨true, 1, [], { p2p with sendQueue := (p2p.sendQueue.push pkt).2 }⟩
    else
      some ⟨false, 0, [], p2p⟩
  | .batch address pkts =>
    if p2p.isConnectionUp = false ∨ p2p.sendQueue.peekRemainingSize < pkts.length then
      some ⟨false, 0, pkts, p2p⟩
    else do
      let encoded ← encodeBinaryFsSubMsg pkts
      let message ← prependHeader (address.header pkts.length) encoded
      some ⟨true, pkts.length, p2p.framed message, p2p.pushAll message⟩
  | .replication address fsStateBatch dpPkt =>
    if p2p.sendQueue.peekRemainingSize < totalPktNum fsStateBatch dpPkt then
      some ⟨false, 0, fsStateBatch ++ [dpPkt], p2p⟩
    else do
      let (dpPkt, dpPktBatch) ← cutPacket dpPkt allocOk
      if dpPktBatch = [] then
        some ⟨false, 0, fsStateBatch ++ [dpPkt], p2p⟩
      else
        let encoded ← encodeBinaryFsSubMsg fsStateBatch
        let message ← prependHeader (address.header (fsStateBatch.length + dpPktBatch.length)) encoded
        some ⟨true, fsStateBatch.length + dpPktBatch.length,
          (p2p.framed (message ++ dpPktBatch)).take (fsStateBatch.length + 1),
          (p2p.pushAll message).pushAll dpPktBatch⟩

/-- The overload for a submission, without the packets of the caller. -/
def overload (p2p : PeerToPeer N) (allocOk : Bool) : Submission → Option (ℕ × PeerToPeer N)
  | .cstruct address bytes => p2p.reliableSendCstruct address bytes allocOk
  | .batch address pkts => p2p.reliableSendBatch address pkts
  | .replication address fsStateBatch dpPkt => p2p.reliableSendReplication address fsStateBatch dpPkt allocOk

theorem map_cutPacket (pkt : Packet) (allocOk : Bool) :
    (cutPacket pkt allocOk).map Prod.snd = createPacketSubMsg pkt allocOk := by
  unfold cutPacket createPacketSubMsg
  split
  · split
    · cases prependTag .packet 2 pkt <;> rfl
    · rfl
  · cases prependTag .packet 1 pkt <;> rfl

variable {allocOk : Bool} {p2p : PeerToPeer N} {submission : Submission}

theorem cutPacket_nil {pkt pkt' : Packet} (h : cutPacket pkt allocOk = some (pkt', [])) : pkt' = pkt := by
  unfold cutPacket at h
  split at h
  · split at h
    · obtain ⟨first, -, hsome⟩ := bind_eq_some_iff.1 h
      cases hsome
    · cases h
      rfl
  · obtain ⟨first, -, hsome⟩ := bind_eq_some_iff.1 h
    cases hsome

/-- Following the packets of the caller changes nothing else. -/
theorem map_submit (p2p : PeerToPeer N) (allocOk : Bool) (submission : Submission) :
    (p2p.submit allocOk submission).map (fun result ↦ (result.count, result.p2p)) =
      p2p.overload allocOk submission := by
  cases submission with
  | cstruct address bytes =>
    rw [submit, overload, reliableSendCstruct]
    split
    · rfl
    · split
      · cases (createCstructSubMsg bytes).prepend (address.header 1).bytes <;> rfl
      · rfl
  | batch address pkts =>
    rw [submit, overload, reliableSendBatch]
    split
    · rfl
    · rcases encodeBinaryFsSubMsg pkts with _ | encoded
      · rfl
      · change ((prependHeader _ encoded).bind _).map _ = (prependHeader _ encoded).bind _
        cases prependHeader (address.header pkts.length) encoded <;> rfl
  | replication address fsStateBatch dpPkt =>
    rw [submit, overload, reliableSendReplication, ← map_cutPacket]
    split
    · rfl
    · rcases cutPacket dpPkt allocOk with _ | ⟨dpPkt', dpPktBatch⟩
      · rfl
      · simp only [Option.bind_eq_bind, Option.bind_some, Option.map_some]
        split
        · rfl
        · rcases encodeBinaryFsSubMsg fsStateBatch with _ | encoded
          · rfl
          · simp only [Option.bind_some]
            cases prependHeader (address.header (fsStateBatch.length + dpPktBatch.length)) encoded <;> rfl

theorem submit_cases {result : Submitted N} (hstate : submission.HasState)
    (h : p2p.submit allocOk submission = some result) :
    result = ⟨false, 0, submission.callerPackets, p2p⟩ ∨ result.accepted = true ∧ result.count ≠ 0 := by
  cases submission with
  | cstruct =>
    rw [submit] at h
    split at h
    · exact .inl (Option.some.inj h).symm
    · split at h
      · obtain ⟨pkt, -, hsome⟩ := bind_eq_some_iff.1 h
        cases hsome
        exact .inr ⟨rfl, one_ne_zero⟩
      · exact .inl (Option.some.inj h).symm
  | batch =>
    rw [submit] at h
    split at h
    · exact .inl (Option.some.inj h).symm
    · obtain ⟨encoded, -, hrest⟩ := bind_eq_some_iff.1 h
      obtain ⟨message, -, hsome⟩ := bind_eq_some_iff.1 hrest
      cases hsome
      exact .inr ⟨rfl, fun hzero ↦ hstate (List.length_eq_zero_iff.1 hzero)⟩
  | replication =>
    rw [submit] at h
    split at h
    · exact .inl (Option.some.inj h).symm
    · obtain ⟨⟨dpPkt', dpPktBatch⟩, hcut, hrest⟩ := bind_eq_some_iff.1 h
      dsimp only at hrest
      split at hrest
      next hempty =>
        rw [hempty] at hcut
        rw [cutPacket_nil hcut] at hrest
        exact .inl (Option.some.inj hrest).symm
      next =>
        obtain ⟨encoded, -, hrest⟩ := bind_eq_some_iff.1 hrest
        obtain ⟨message, -, hsome⟩ := bind_eq_some_iff.1 hrest
        cases hsome
        refine .inr ⟨rfl, fun hzero ↦ hstate ?_⟩
        exact List.length_eq_zero_iff.1 (Nat.add_eq_zero_iff.1 hzero).1

theorem pushed_overload (hN : ValidSize N) {p2p' : PeerToPeer N} {count : ℕ} (hwf : p2p.sendQueue.WellFormed)
    (h : p2p.overload allocOk submission = some (count, p2p')) : Pushed p2p count p2p' := by
  cases submission with
  | cstruct => exact pushed_reliableSendCstruct hwf h
  | batch => exact pushed_reliableSendBatch hwf h
  | replication => exact pushed_reliableSendReplication hN hwf h

/-- The queue behind a run of packets that has been pushed. -/
structure Appended (p2p : PeerToPeer N) (contents : List (List UInt8)) (p2p' : PeerToPeer N)
    (pushed : List (Segment Packet)) : Prop where
  queued : p2p'.sendQueue.contents = p2p.sendQueue.contents ++ pushed
  sequence : InSequence p2p.sendQueue.nextSeqNum pushed
  data : (pushed.map fun pkt ↦ pkt.payload.data) = contents

theorem appended_of_push (hN : ValidSize N) (hwf : p2p.sendQueue.WellFormed) {run : List Packet}
    (hfit : run.length + p2p.sendQueue.curSize ≤ N) :
    ∃ pushed, Appended p2p (run.map Packet.data)
      { p2p with sendQueue := run.foldl (fun q payload ↦ (q.push payload).2) p2p.sendQueue } pushed := by
  obtain ⟨pushed, hcontents, hpayload, hseq, -, -⟩ := foldl_push_spec hN run hwf hfit
  refine ⟨pushed, hcontents, hseq, ?_⟩
  rw [← hpayload, List.map_map]
  rfl

theorem overload_cstruct (hN : ValidSize N) (hwf : p2p.sendQueue.WellFormed) (address : Address)
    (bytes : List UInt8) (allocOk : Bool) :
    p2p.overload allocOk (.cstruct address bytes) = some (0, p2p) ∨
      ∃ p2p' pushed, p2p.overload allocOk (.cstruct address bytes) = some (1, p2p') ∧
        Appended p2p (Submission.cstruct address bytes).contents p2p' pushed := by
  rw [overload, reliableSendCstruct]
  split
  · exact .inl rfl
  next hroom =>
    split
    · have hheader : (address.header 1).bytes.length ≤ (createCstructSubMsg bytes).dataOff := by
        rw [MessageHeader.length_bytes]
        show MessageHeader.size ≤ Packet.headroom + pktMsgOffset
        decide
      obtain ⟨pkt, hpkt, -⟩ := Packet.exists_prepend hheader
      have hremaining : p2p.sendQueue.peekRemainingSize ≠ 0 := fun h ↦ hroom (.inr h)
      rw [SendQueue.peekRemainingSize] at hremaining
      have hfit : [pkt].length + p2p.sendQueue.curSize ≤ N := by
        rw [List.length_singleton]
        omega
      obtain ⟨pushed, happended⟩ := appended_of_push hN hwf hfit
      refine .inr ⟨_, pushed, by rw [hpkt]; rfl, happended.queued, happended.sequence, ?_⟩
      rw [happended.data, List.map_singleton, Packet.data_prepend hpkt, createCstructSubMsg, Packet.data_alloc]
      rfl
    · exact .inl rfl

theorem overload_batch (hN : ValidSize N) (hwf : p2p.sendQueue.WellFormed) (address : Address)
    {pkts : List Packet} (allocOk : Bool) (hstate : pkts ≠ [])
    (hheadroom : ∀ pkt ∈ pkts, pktMsgOffset ≤ pkt.dataOff) :
    p2p.overload allocOk (.batch address pkts) = some (0, p2p) ∨
      ∃ p2p' pushed, p2p.overload allocOk (.batch address pkts) = some (pkts.length, p2p') ∧
        Appended p2p (Submission.batch address pkts).contents p2p' pushed := by
  have hsize := hwf.size_le
  rw [overload, reliableSendBatch]
  split
  · exact .inl rfl
  next hroom =>
    cases pkts with
    | nil => exact absurd rfl hstate
    | cons head others =>
      obtain ⟨first, hencode, hfirst⟩ :=
        exists_encode address (others.length + 1) others (hheadroom head List.mem_cons_self)
      obtain ⟨encoded, hencoded, hprepend⟩ := bind_eq_some_iff.1 hencode
      have hremaining : ¬p2p.sendQueue.peekRemainingSize < (head :: others).length := fun h ↦ hroom (.inr h)
      rw [SendQueue.peekRemainingSize] at hremaining
      have hfit : (first :: others).length + p2p.sendQueue.curSize ≤ N := by
        rw [List.length_cons] at hremaining ⊢
        omega
      obtain ⟨pushed, happended⟩ := appended_of_push hN hwf hfit
      refine .inr ⟨p2p.pushAll (first :: others), pushed, ?_, ?_, happended.sequence, ?_⟩
      · rw [hencoded, List.length_cons]
        change (prependHeader _ encoded).bind _ = _
        rw [hprepend]
        rfl
      · rw [pushAll, SendQueue.pushBatch, if_neg (not_lt.2 hfit)]
        exact happended.queued
      · rw [happended.data, List.map_cons, hfirst]
        rfl

/-- A packet that is not cut needs no allocation. -/
theorem reliableSendReplication_short (p2p : PeerToPeer N) (address : Address) (fsStateBatch : List Packet)
    {dpPkt : Packet} (allocOk : Bool) (h : ¬pktSubMsgCuttingThresh < dpPkt.dataLen) :
    p2p.reliableSendReplication address fsStateBatch dpPkt allocOk =
      p2p.reliableSendReplication address fsStateBatch dpPkt true := by
  rw [reliableSendReplication, reliableSendReplication, createPacketSubMsg, createPacketSubMsg, if_neg h,
    if_neg h]

theorem overload_replication (hN : ValidSize N) (hwf : p2p.sendQueue.WellFormed) (address : Address)
    {fsStateBatch : List Packet} {dpPkt : Packet} (allocOk : Bool) (hstate : fsStateBatch ≠ [])
    (hheadroom : ∀ pkt ∈ fsStateBatch ++ [dpPkt], pktMsgOffset ≤ pkt.dataOff) :
    p2p.overload allocOk (.replication address fsStateBatch dpPkt) = some (0, p2p) ∨
      ∃ p2p' pushed, p2p.overload allocOk (.replication address fsStateBatch dpPkt) =
          some (totalPktNum fsStateBatch dpPkt, p2p') ∧
        Appended p2p (Submission.replication address fsStateBatch dpPkt).contents p2p' pushed := by
  rw [overload]
  by_cases hroom : p2p.sendQueue.peekRemainingSize < totalPktNum fsStateBatch dpPkt
  · left
    rw [reliableSendReplication, if_pos hroom]
  by_cases hrefused : pktSubMsgCuttingThresh < dpPkt.dataLen ∧ allocOk = false
  · left
    rw [reliableSendReplication, if_neg hroom, createPacketSubMsg, if_pos hrefused.1, hrefused.2]
    rfl
  have halloc : p2p.reliableSendReplication address fsStateBatch dpPkt allocOk =
      p2p.reliableSendReplication address fsStateBatch dpPkt true := by
    cases allocOk with
    | true => rfl
    | false => exact reliableSendReplication_short p2p address fsStateBatch false fun h ↦ hrefused ⟨h, rfl⟩
  cases fsStateBatch with
  | nil => exact absurd rfl hstate
  | cons head =>
    obtain ⟨p2p', pushed, hsend, hqueued, hseq, hdata⟩ := exists_reliableSendReplication hN hwf address
      (hheadroom head (by simp)) (hheadroom dpPkt (by simp)) (not_lt.1 hroom)
    exact .inr ⟨p2p', pushed, halloc.trans hsend, hqueued, hseq, hdata⟩

theorem overload_spec (hN : ValidSize N) (hwf : p2p.sendQueue.WellFormed) (allocOk : Bool)
    (hstate : submission.HasState) (hheadroom : ∀ pkt ∈ submission.callerPackets, pktMsgOffset ≤ pkt.dataOff) :
    p2p.overload allocOk submission = some (0, p2p) ∨
      ∃ p2p' pushed, p2p.overload allocOk submission = some (submission.size, p2p') ∧
        Appended p2p submission.contents p2p' pushed := by
  cases submission with
  | cstruct address bytes => exact overload_cstruct hN hwf address bytes allocOk
  | batch address => exact overload_batch hN hwf address allocOk hstate hheadroom
  | replication address =>
    exact overload_replication hN hwf address allocOk hstate hheadroom

/-- A submission is refused and leaves all alone, or all its packets are queued. -/
theorem submit_spec (hN : ValidSize N) (hwf : p2p.sendQueue.WellFormed) (allocOk : Bool)
    (hstate : submission.HasState) (hheadroom : ∀ pkt ∈ submission.callerPackets, pktMsgOffset ≤ pkt.dataOff) :
    p2p.submit allocOk submission = some ⟨false, 0, submission.callerPackets, p2p⟩ ∨
      ∃ callerPackets p2p' pushed,
        p2p.submit allocOk submission = some ⟨true, submission.size, callerPackets, p2p'⟩ ∧
        p2p'.destRtid = p2p.destRtid ∧ Appended p2p submission.contents p2p' pushed := by
  have hmap := p2p.map_submit allocOk submission
  rcases overload_spec hN hwf allocOk hstate hheadroom with hrefused | ⟨p2p', pushed, hsend, happended⟩
  · rw [hrefused] at hmap
    obtain ⟨result, hresult, heq⟩ := map_eq_some_iff.1 hmap
    rcases submit_cases hstate hresult with rfl | ⟨-, hcount⟩
    · exact .inl hresult
    · exact absurd (congrArg Prod.fst heq) hcount
  · have hrtid := ((pushed_overload hN hwf hsend).counters hN hwf).2.2.2
    rw [hsend] at hmap
    obtain ⟨⟨accepted, count, callerPackets, p2p''⟩, hresult, heq⟩ := map_eq_some_iff.1 hmap
    obtain ⟨rfl, rfl⟩ := Prod.mk.inj heq
    rcases submit_cases hstate hresult with hrefused | ⟨haccepted, -⟩
    · exact .inl (hresult.trans (congrArg some hrefused))
    · cases haccepted
      exact .inr ⟨callerPackets, p2p'', pushed, hresult, hrtid, happended⟩

end PeerToPeer

namespace Outbound

open PeerToPeer

variable {N : ℕ} {outbound : Outbound N} {lists : ItemList → List ℕ}

/-- `reliable_send` to an existing peer, with the credit for an accepted message. -/
def submit (outbound : Outbound N) (rtid : ℤ) (allocOk : Bool) (submission : Submission) :
    Option (Bool × List Packet × Outbound N) := do
  let p2p ← outbound.reliables rtid
  let result ← p2p.submit allocOk submission
  if result.accepted then
    let outbound ← (outbound.setPeer rtid result.p2p).addToReliableSendList result.p2p result.count
    some (true, result.callerPackets, outbound)
  else
    some (false, result.callerPackets, outbound.setPeer rtid result.p2p)

/-! ## Credit for a message -/

/-- One peer has gained credit, and nothing else has changed. -/
structure Credited (outbound : Outbound N) (lists : ItemList → List ℕ) (rtid : ℤ) (num : ℕ)
    (outbound' : Outbound N) (lists' : ItemList → List ℕ) : Prop where
  placed : Partition outbound'.allocator outbound'.links lists'
  reliables : outbound'.reliables = outbound.reliables
  drain : outbound'.drain = outbound.drain
  others : ∀ list, list ≠ .reliableSend → lists' list = lists list
  credit : ∀ other, credit outbound'.items (lists' .reliableSend) other =
    credit outbound.items (lists .reliableSend) other + if rtid = other then (num : ℤ) else 0

/-- The item pool has an item left. -/
def HasFreeItem (outbound : Outbound N) : Prop := outbound.allocator.pop ≠ none

variable (hplaced : Partition outbound.allocator outbound.links lists)

include hplaced

theorem credited_addToTail (hfree : outbound.HasFreeItem) (p2p : PeerToPeer N) (num : ℕ) :
    ∃ outbound' lists', outbound.addToTail .reliableSend (creditItem p2p num) = some outbound' ∧
      Credited outbound lists p2p.destRtid num outbound' lists' := by
  obtain ⟨⟨index, free⟩, hpop⟩ := Option.ne_none_iff_exists'.1 hfree
  obtain ⟨hcontents, -⟩ := RingBuffer.contents_pop hpop
  have hfresh : index ∉ lists .reliableSend := hplaced.free_unlinked index (hcontents ▸ List.mem_cons_self) _
  refine ⟨{ outbound with
    allocator := free
    links := outbound.links.addTail (.head .reliableSend) (.item index)
    items := update outbound.items index (creditItem p2p num (outbound.items index)) },
    update lists .reliableSend (lists .reliableSend ++ [index]), ?_, ?_⟩
  · rw [addToTail, allocate, hpop]
    rfl
  · refine ⟨hplaced.addTail .reliableSend hpop, rfl, rfl, fun list hlist ↦ update_of_ne hlist _ _, ?_⟩
    intro other
    rw [update_self, credit_append, credit_update_of_notMem hfresh]
    simp [Reliable.credit, share, creditItem]

theorem credited_addCredit {index num : ℕ} (hindex : index ∈ lists .reliableSend)
    (hint : (outbound.items index).pktNum + num ≤ intMax) :
    ∃ outbound', outbound.addCredit index num = some outbound' ∧
      Credited outbound lists (outbound.items index).reliableRtid num outbound' lists := by
  let item := { outbound.items index with pktNum := (outbound.items index).pktNum + num }
  refine ⟨{ outbound with items := update outbound.items index item }, if_pos hint, hplaced, rfl, rfl,
    fun _ _ ↦ rfl, fun other ↦ ?_⟩
  have hcredit := credit_update other item (hplaced.nodup_list .reliableSend) hindex rfl
  dsimp only [item] at hcredit ⊢
  rw [hcredit, add_sub_cancel_left]

theorem credited_addToReliableSendList (hfree : outbound.HasFreeItem) (p2p : PeerToPeer N) {num : ℕ}
    (hint : ∀ index ∈ lists .reliableSend, (outbound.items index).pktNum + num ≤ intMax) :
    ∃ outbound' lists', outbound.addToReliableSendList p2p num = some outbound' ∧
      Credited outbound lists p2p.destRtid num outbound' lists' := by
  rw [Outbound.addToReliableSendList, Outbound.peekTail, hplaced.peekLast .reliableSend, Option.bind_eq_bind,
    Option.bind_some]
  cases hlast : (lists .reliableSend).getLast? with
  | none => exact credited_addToTail hplaced hfree p2p num
  | some index =>
    dsimp only
    split
    next => exact credited_addToTail hplaced hfree p2p num
    next hrtid =>
      have hindex := List.mem_of_getLast? hlast
      obtain ⟨outbound', hadd, hcredited⟩ := credited_addCredit hplaced hindex (hint index hindex)
      rw [not_not.1 hrtid] at hcredited
      exact ⟨outbound', lists, hadd, hcredited⟩

omit hplaced

theorem setPeer_self {rtid : ℤ} {p2p : PeerToPeer N} (hpeer : outbound.reliables rtid = some p2p) :
    outbound.setPeer rtid p2p = outbound := by
  rw [setPeer, ← hpeer, update_eq_self]

/-- With an item left in the pool and headroom in the packets, `reliable_send` either refuses and leaves the
queues, the send list and the packets of the caller as they were, or queues all packets of the message, one
behind the other, and gives the peer credit for exactly these. -/
theorem reliable_send_all_or_nothing (hN : ValidSize N)
    (hplaced : Partition outbound.allocator outbound.links lists) (hfree : outbound.HasFreeItem) {rtid : ℤ}
    {p2p : PeerToPeer N} (hpeer : outbound.reliables rtid = some p2p) (hwf : p2p.sendQueue.WellFormed)
    (hrtid : p2p.destRtid = rtid) (allocOk : Bool) {submission : Submission} (hstate : submission.HasState)
    (hheadroom : ∀ pkt ∈ submission.callerPackets, pktMsgOffset ≤ pkt.dataOff)
    (hint : ∀ index ∈ lists .reliableSend, (outbound.items index).pktNum + submission.size ≤ intMax) :
    outbound.submit rtid allocOk submission = some (false, submission.callerPackets, outbound) ∨
      ∃ callerPackets outbound' lists' p2p' pushed,
        outbound.submit rtid allocOk submission = some (true, callerPackets, outbound') ∧
        outbound'.reliables rtid = some p2p' ∧
        Appended p2p submission.contents p2p' pushed ∧ pushed.length = submission.size ∧
        (∀ other, other ≠ rtid → outbound'.reliables other = outbound.reliables other) ∧
        Partition outbound'.allocator outbound'.links lists' ∧
        ∀ other, credit outbound'.items (lists' .reliableSend) other =
          credit outbound.items (lists .reliableSend) other +
            if rtid = other then (submission.size : ℤ) else 0 := by
  rcases submit_spec hN hwf allocOk hstate hheadroom with
    hrefused | ⟨callerPackets, p2p', pushed, hsend, hrtid', happended⟩
  · left
    rw [submit, hpeer, Option.bind_eq_bind, Option.bind_some, hrefused]
    simp only [Option.bind_eq_bind, Option.bind_some, Bool.false_eq_true, if_false, setPeer_self hpeer]
  · right
    obtain ⟨outbound', lists', hadd, hcredited⟩ :=
      @credited_addToReliableSendList N (outbound.setPeer rtid p2p') lists hplaced hfree p2p' _ hint
    rw [hrtid', hrtid] at hcredited
    refine ⟨callerPackets, outbound', lists', p2p', pushed, ?_, ?_, happended, ?_, ?_, hcredited.placed,
      hcredited.credit⟩
    · rw [submit, hpeer, Option.bind_eq_bind, Option.bind_some, hsend]
      simp only [Option.bind_eq_bind, Option.bind_some, if_true, hadd]
    · rw [hcredited.reliables]
      exact update_self _ _ _
    · rw [← Submission.length_contents hstate, ← happended.data, List.length_map]
    · intro other hother
      rw [hcredited.reliables]
      exact update_of_ne hother _ _

/-- A worker with one peer. -/
def onePeer : Outbound reliableSendQueueSize := fresh.setPeer 1 (blank.construction.build 1 0)

/-- Two packets of flow state and a data packet. -/
def stateAndPacket : Submission :=
  .replication ⟨1, 1, 0, 0⟩ [emptyPacket, emptyPacket] emptyPacket

/-- Three packets are appended, and the peer has credit for three. -/
theorem reliable_send_all_or_nothing_states : ∃ callerPackets outbound' lists' p2p' pushed,
    onePeer.submit 1 true stateAndPacket = some (true, callerPackets, outbound') ∧
    outbound'.reliables 1 = some p2p' ∧ p2p'.sendQueue.contents = pushed ∧ pushed.length = 3 ∧
    Partition outbound'.allocator outbound'.links lists' ∧
    credit outbound'.items (lists' .reliableSend) 1 = 3 := by
  have haccepted : (onePeer.submit 1 true stateAndPacket).map Prod.fst = some true := by decide +kernel
  have hfree : onePeer.HasFreeItem := by
    simp [HasFreeItem, onePeer, setPeer, fresh, init, RingBuffer.pop, RingBuffer.filled, itemPoolSize,
      reliableSendQueueSize]
  have hplaced : Partition onePeer.allocator onePeer.links fun _ ↦ [] :=
    Partition.initial itemPoolSize (by decide)
  have hpeer : onePeer.reliables 1 = some (blank.construction.build 1 0) := by
    simp only [onePeer, setPeer, update_self]
  have hstate : stateAndPacket.HasState := List.cons_ne_nil _ _
  rcases reliable_send_all_or_nothing validSize_reliableSendQueueSize hplaced hfree hpeer
    (SendQueue.wellFormed_init validSize_reliableSendQueueSize _ _ _) rfl true hstate (by decide)
    (by simp) with
    hrefused | ⟨callerPackets, outbound', lists', p2p', pushed, hsend, hpeer, happended, hlength, -, hlists,
      hcredit⟩
  · rw [hrefused] at haccepted
    cases haccepted
  · exact ⟨callerPackets, outbound', lists', p2p', pushed, hsend, hpeer, happended.queued, hlength, hlists,
      hcredit 1⟩

end Outbound

end NfvActor.Reliable
