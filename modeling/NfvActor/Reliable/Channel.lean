import Mathlib.Tactic
import NfvActor.Foundation.Transition
import NfvActor.Reliable.PeerToPeer

/-!
# Exactly-once, in-order delivery over an unreliable network

One end pushes packets, sends windows of them and rewinds its window; the other receives and acknowledges. The
network keeps a copy of everything ever sent and may deliver any copy at any time: loss, duplication and
reordering are runs of the same system.
-/

namespace NfvActor.Reliable

open Foundation

section SentSequence

variable {N : ℕ} {α : Type}

/-- The queue holds the unreleased rest of `pushed`, numbered from one. -/
structure Tracks (queue : SendQueue N α) (pushed : List α) : Prop where
  wellFormed : queue.WellFormed
  head_pos : 1 ≤ queue.headSeqNum.toNat
  numbered : queue.headSeqNum.toNat + queue.curSize = pushed.length + 1
  payloads : queue.contents.map Segment.payload = pushed.drop (queue.headSeqNum.toNat - 1)

/-- A data packet carries the pushed packet that its sequence number names. -/
structure Carries (pushed : List α) (pkt : Segment α) : Prop where
  magic : pkt.header.magicNum = msgMagicNum
  seq_pos : 1 ≤ pkt.header.seqNum.toNat
  payload : pushed[pkt.header.seqNum.toNat - 1]? = some pkt.payload

theorem Carries.append {pushed : List α} {pkt : Segment α} (hpkt : Carries pushed pkt)
    (more : List α) : Carries (pushed ++ more) pkt := by
  refine ⟨hpkt.magic, hpkt.seq_pos, ?_⟩
  obtain ⟨hlt, -⟩ := List.getElem?_eq_some_iff.1 hpkt.payload
  rw [List.getElem?_append_left hlt]
  exact hpkt.payload

namespace Tracks

theorem init (hN : ValidSize N) (ringBuf : ℕ → Segment α) (sendTime : ℕ → UInt64) (rh : α → List UInt8) :
    Tracks (SendQueue.init ringBuf sendTime rh : SendQueue N α) [] where
  wellFormed := SendQueue.wellFormed_init hN ringBuf sendTime rh
  head_pos := le_rfl
  numbered := rfl
  payloads := by
    rw [SendQueue.contents_init]
    rfl

variable {queue queue' : SendQueue N α} {pushed : List α}

/-- Operations that only move the window keep the relation. -/
theorem of_same_contents (htracks : Tracks queue pushed) (hwf : queue'.WellFormed)
    (hcontents : queue'.contents = queue.contents) (hhead : queue'.headSeqNum = queue.headSeqNum) :
    Tracks queue' pushed := by
  have hsize : queue'.curSize = queue.curSize := by
    rw [← SendQueue.length_contents, hcontents, SendQueue.length_contents]
  refine ⟨hwf, ?_, ?_, ?_⟩
  · rw [hhead]
    exact htracks.head_pos
  · rw [hhead, hsize]
    exact htracks.numbered
  · rw [hcontents, hhead]
    exact htracks.payloads

theorem push (hN : ValidSize N) (htracks : Tracks queue pushed) (payload : α) (hroom : queue.curSize < N) :
    Tracks (queue.push payload).2 (pushed ++ [payload]) := by
  have hcontents := SendQueue.contents_push hN htracks.wellFormed payload hroom
  have hhead : (queue.push payload).2.headSeqNum = queue.headSeqNum := by
    rw [SendQueue.push, if_neg hroom.ne]
  have hsize : (queue.push payload).2.curSize = queue.curSize + 1 := by
    rw [SendQueue.push, if_neg hroom.ne]
  refine ⟨htracks.wellFormed.push hN payload, ?_, ?_, ?_⟩
  · rw [hhead]
    exact htracks.head_pos
  · rw [hhead, hsize, List.length_append, List.length_singleton, ← htracks.numbered]
    omega
  · have hnumbered := htracks.numbered
    rw [hcontents, hhead, List.map_append, htracks.payloads, List.drop_append_of_le_length (by omega)]
    rfl

theorem foldl_push (hN : ValidSize N) (batch : List α) (htracks : Tracks queue pushed)
    (hroom : batch.length + queue.curSize ≤ N) :
    Tracks (batch.foldl (fun q payload ↦ (q.push payload).2) queue) (pushed ++ batch) := by
  induction batch generalizing queue pushed with
  | nil => simpa using htracks
  | cons payload _ ih =>
    rw [List.length_cons] at hroom
    have hsize : (queue.push payload).2.curSize = queue.curSize + 1 := by
      rw [SendQueue.push, if_neg (by omega)]
    have hrest := ih (htracks.push hN payload (by omega)) (by omega)
    rwa [List.append_assoc] at hrest

/-- Before the wrap, every queued packet carries the packet its number names. -/
theorem carries (htracks : Tracks queue pushed) (hcount : pushed.length + 1 < 2 ^ 32) {pkt : Segment α}
    (hpkt : pkt ∈ queue.contents) : Carries pushed pkt := by
  obtain ⟨index, hindex, rfl⟩ := List.mem_iff_getElem.1 hpkt
  have hlt : index < queue.curSize := by rwa [SendQueue.length_contents] at hindex
  have hnumbered := htracks.numbered
  have hpos := htracks.head_pos
  obtain ⟨hmagic, hseq⟩ := htracks.wellFormed.headers index hlt
  rw [← SendQueue.getElem_contents queue index hindex] at hmagic hseq
  have hseqNat : (queue.contents[index]).header.seqNum.toNat = queue.headSeqNum.toNat + index := by
    rw [hseq, toNat_add_ofNat]
    exact Nat.mod_eq_of_lt (by omega)
  refine ⟨hmagic, by omega, ?_⟩
  calc
    pushed[(queue.contents[index]).header.seqNum.toNat - 1]? =
        (pushed.drop (queue.headSeqNum.toNat - 1))[index]? := by
      rw [List.getElem?_drop, hseqNat]
      congr 1
      omega
    _ = (queue.contents.map Segment.payload)[index]? := by rw [htracks.payloads]
    _ = some (queue.contents[index]).payload := by
      rw [List.getElem?_map, List.getElem?_eq_getElem hindex]
      rfl

/-- An acknowledgement releases the packets between the old head and the new one. -/
theorem pop (hN : ValidSize N) (htracks : Tracks queue pushed) {ackSeqNum : UInt32} {currentNs : UInt64}
    {released : List (Segment α)} (hpop : queue.pop ackSeqNum currentNs = some (released, queue')) :
    Tracks queue' pushed ∧ (queue'.headSeqNum = queue.headSeqNum ∨ queue'.headSeqNum = ackSeqNum) ∧
      pushed.take (queue.headSeqNum.toNat - 1) ++ released.map Segment.payload =
        pushed.take (queue'.headSeqNum.toNat - 1) := by
  by_cases hignored : queue.curSize = 0 ∨ ackSeqNum ≤ queue.headSeqNum ∨ queue.nextSeqNum < ackSeqNum
  · rw [SendQueue.pop, if_pos hignored] at hpop
    cases hpop
    exact ⟨htracks, .inl rfl, by simp⟩
  · obtain ⟨queue₁, hsome, hwf, hcontents, hhead, -, -⟩ :=
      SendQueue.pop_spec hN htracks.wellFormed ackSeqNum currentNs hignored
    rw [hsome] at hpop
    cases hpop
    have hpos := htracks.head_pos
    obtain ⟨horder, hbound, -, hcountEq⟩ := SendQueue.pop_order htracks.wellFormed hN hignored
    have hlength : queue'.curSize = queue.curSize - (ackSeqNum - queue.headSeqNum).toNat := by
      rw [← SendQueue.length_contents, hcontents, List.length_drop, SendQueue.length_contents]
    have hnumbered := htracks.numbered
    refine ⟨⟨hwf, ?_, ?_, ?_⟩, .inr hhead, ?_⟩
    · rw [hhead]
      omega
    · rw [hhead, hlength]
      omega
    · rw [hcontents, List.map_drop, htracks.payloads, List.drop_drop, hhead]
      congr 1
      omega
    · rw [List.map_take, htracks.payloads, hhead, ← List.take_add]
      congr 1
      omega

end Tracks

end SentSequence

/-- Both ends, everything put on the network, and the history. -/
structure Channel (N : ℕ) where
  sender : PeerToPeer N
  receiver : PeerToPeer N
  dataNet : List (Segment Packet)
  ackNet : List (Segment Packet)
  pushed : List Packet
  accepted : List Packet
  released : List (Segment Packet)

namespace Channel

variable {N : ℕ} {sender : PeerToPeer N} {pkt : Segment Packet} {currentNs : UInt64}

/-- The events of a run; the network may lose and repeat packets. -/
inductive Event
  | push (payload : Packet)
  | pushBatch (batch : List Packet)
  | getWindowBatch (windowSize : ℕ) (copyOk : ℕ → Bool) (currentNs : UInt64)
  | resetWindowPos
  | checkSender (currentNs : UInt64)
  | checkReceiver (currentNs : UInt64)
  | deliverData (pkt : Segment Packet) (fuel : ℕ) (currentNs : UInt64)
  | getAckPkt (allocOk : Bool)
  | deliverAck (pkt : Segment Packet) (fuel : ℕ) (currentNs : UInt64)

/-- Replace the send queue of the sending end. -/
def withQueue (channel : Channel N) (sendQueue : SendQueue N Packet) : Channel N :=
  { channel with sender := { channel.sender with sendQueue } }

/-- The receiving end handles a data packet, and accepts it by advancing its cursor. -/
def receiveData (channel : Channel N) (pkt : Segment Packet) (fuel : ℕ) (currentNs : UInt64) :
    Option (Channel N) := do
  let (outcome, receiver) ← channel.receiver.recv fuel currentNs pkt
  let receiver := if outcome.message.isSome then receiver.cleanMsg.2 else receiver
  some { channel with
    receiver
    accepted :=
      if receiver.nextSeqNumToRecv = channel.receiver.nextSeqNumToRecv + 1 then
        channel.accepted ++ [pkt.payload]
      else channel.accepted }

def step (channel : Channel N) : Event → Option (Channel N)
  | .push payload =>
    let result := channel.sender.sendQueue.push payload
    some { channel.withQueue result.2 with
      pushed := if result.1 then channel.pushed ++ [payload] else channel.pushed }
  | .pushBatch batch =>
    let result := channel.sender.sendQueue.pushBatch batch
    some { channel.withQueue result.2 with
      pushed := if result.1 then channel.pushed ++ batch else channel.pushed }
  | .getWindowBatch windowSize copyOk currentNs =>
    let result := channel.sender.sendQueue.getWindowBatch windowSize copyOk currentNs
    some { channel.withQueue result.2 with dataNet := channel.dataNet ++ result.1 }
  | .resetWindowPos => some (channel.withQueue channel.sender.sendQueue.resetWindowPos.2)
  | .checkSender currentNs => some { channel with sender := (channel.sender.check currentNs).2 }
  | .checkReceiver currentNs => some { channel with receiver := (channel.receiver.check currentNs).2 }
  | .deliverData pkt fuel currentNs =>
    if pkt ∈ channel.dataNet then channel.receiveData pkt fuel currentNs else none
  | .getAckPkt allocOk => do
    let (ack, receiver) ← channel.receiver.getAckPkt allocOk
    some { channel with receiver, ackNet := channel.ackNet ++ ack.toList }
  | .deliverAck pkt fuel currentNs =>
    if pkt ∈ channel.ackNet then do
      let (outcome, sender) ← channel.sender.recv fuel currentNs pkt
      some { channel with sender, released := channel.released ++ outcome.released }
    else none

/-- Both ends freshly constructed, nothing sent. -/
structure Initial (channel : Channel N) : Prop where
  sender : ∃ rtid gate frame now ringBuf sendTime rh msg, channel.sender =
    PeerToPeer.init rtid gate frame now (SendQueue.init ringBuf sendTime rh) msg
  receiver : ∃ rtid gate frame now ringBuf sendTime rh msg, channel.receiver =
    PeerToPeer.init rtid gate frame now (SendQueue.init ringBuf sendTime rh) msg
  dataNet : channel.dataNet = []
  ackNet : channel.ackNet = []
  pushed : channel.pushed = []
  accepted : channel.accepted = []
  released : channel.released = []

/-- The connection as a transition system. -/
def system (N : ℕ) : TransitionSystem (Channel N) Event where
  init := Initial
  step := step

/-! ## The joint invariant -/

/-- Neither end has given up, and the sequence numbers have not wrapped. -/
structure InService (channel : Channel N) : Prop where
  senderUp : channel.sender.isConnectionUp = true
  receiverUp : channel.receiver.isConnectionUp = true
  count : channel.pushed.length < 2 ^ 32 - 1

/-- Both ends and all packets in flight agree on one sequence. -/
structure Coherent (channel : Channel N) : Prop where
  tracks : Tracks channel.sender.sendQueue channel.pushed
  data : ∀ pkt ∈ channel.dataNet, Carries channel.pushed pkt
  acks : ∀ pkt ∈ channel.ackNet, pkt.header.magicNum = ackMagicNum ∧
    pkt.header.seqNum.toNat ≤ channel.receiver.nextSeqNumToRecv.toNat
  recv_pos : 1 ≤ channel.receiver.nextSeqNumToRecv.toNat
  recv_le : channel.receiver.nextSeqNumToRecv.toNat ≤ channel.pushed.length + 1
  accepted_eq : channel.accepted =
    channel.pushed.take (channel.receiver.nextSeqNumToRecv.toNat - 1)
  head_le : channel.sender.sendQueue.headSeqNum.toNat ≤ channel.receiver.nextSeqNumToRecv.toNat
  released_eq : channel.released.map Segment.payload =
    channel.pushed.take (channel.sender.sendQueue.headSeqNum.toNat - 1)

variable {channel channel' : Channel N} {sendQueue : SendQueue N Packet} {receiver : PeerToPeer N}

theorem coherent_of_initial (hN : ValidSize N) (hinit : channel.Initial) : channel.Coherent := by
  obtain ⟨⟨rtid, gate, frame, now, ringBuf, sendTime, rh, msg, hsender⟩, hreceiver, hdata, hacks,
    hpushed, haccepted, hreleased⟩ := hinit
  obtain ⟨_, _, _, _, _, _, _, _, hreceiver⟩ := hreceiver
  have hcursor : channel.receiver.nextSeqNumToRecv = 1 := by
    rw [hreceiver]
    rfl
  have hhead : channel.sender.sendQueue.headSeqNum = 1 := by
    rw [hsender]
    rfl
  constructor
  · rw [hsender, hpushed]
    exact Tracks.init hN ringBuf sendTime rh
  · simp [hdata]
  · simp [hacks]
  · simp [hcursor]
  · simp [hcursor]
  · simp [haccepted, hpushed]
  · simp [hhead, hcursor]
  · simp [hreleased, hpushed]

variable (hcoherent : channel.Coherent)

include hcoherent

/-- Moving the window, and sending packets that are still queued. -/
theorem Coherent.sendWindow (hservice : channel.InService) {batch : List (Segment Packet)}
    (hwf : sendQueue.WellFormed) (hcontents : sendQueue.contents = channel.sender.sendQueue.contents)
    (hhead : sendQueue.headSeqNum = channel.sender.sendQueue.headSeqNum)
    (hbatch : ∀ pkt ∈ batch, pkt ∈ channel.sender.sendQueue.contents) :
    Coherent { channel.withQueue sendQueue with dataNet := channel.dataNet ++ batch } := by
  have hcount : channel.pushed.length + 1 < 2 ^ 32 := by
    have := hservice.count
    omega
  constructor
  · exact hcoherent.tracks.of_same_contents hwf hcontents hhead
  · intro pkt hpkt
    rcases List.mem_append.1 hpkt with hold | hnew
    · exact hcoherent.data pkt hold
    · exact hcoherent.tracks.carries hcount (hbatch pkt hnew)
  · exact hcoherent.acks
  · exact hcoherent.recv_pos
  · exact hcoherent.recv_le
  · exact hcoherent.accepted_eq
  · simpa only [withQueue, hhead] using hcoherent.head_le
  · simpa only [withQueue, hhead] using hcoherent.released_eq

theorem Coherent.sameQueue (hsame : sender.sendQueue = channel.sender.sendQueue) :
    Coherent { channel with sender } where
  __ := hcoherent
  tracks := hsame ▸ hcoherent.tracks
  head_le := hsame ▸ hcoherent.head_le
  released_eq := hsame ▸ hcoherent.released_eq

theorem Coherent.rewind (hservice : channel.InService) :
    (channel.withQueue channel.sender.sendQueue.resetWindowPos.2).Coherent := by
  obtain ⟨hwf, hcontents⟩ := SendQueue.resetWindowPos_spec hcoherent.tracks.wellFormed
  have hsent : Coherent { channel.withQueue channel.sender.sendQueue.resetWindowPos.2 with
      dataNet := channel.dataNet ++ [] } :=
    hcoherent.sendWindow hservice hwf hcontents rfl (by simp)
  rwa [List.append_nil] at hsent

theorem Coherent.extend {more : List Packet} (htracks : Tracks sendQueue (channel.pushed ++ more))
    (hhead : sendQueue.headSeqNum = channel.sender.sendQueue.headSeqNum) :
    Coherent { channel.withQueue sendQueue with pushed := channel.pushed ++ more } := by
  have hrecv := hcoherent.recv_le
  have hheadLe := hcoherent.head_le
  constructor
  · exact htracks
  · exact fun pkt hpkt ↦ (hcoherent.data pkt hpkt).append more
  · exact hcoherent.acks
  · exact hcoherent.recv_pos
  · simp only [withQueue, List.length_append]
    omega
  · simp only [withQueue]
    rw [List.take_append_of_le_length (by omega)]
    exact hcoherent.accepted_eq
  · simpa only [withQueue, hhead] using hheadLe
  · simp only [withQueue, hhead]
    rw [List.take_append_of_le_length (by omega)]
    exact hcoherent.released_eq

/-- The receiving end's cursor moves forward within the sequence. -/
theorem Coherent.withReceiver {accepted : List Packet}
    (hge : channel.receiver.nextSeqNumToRecv.toNat ≤ receiver.nextSeqNumToRecv.toNat)
    (hle : receiver.nextSeqNumToRecv.toNat ≤ channel.pushed.length + 1)
    (haccepted : accepted = channel.pushed.take (receiver.nextSeqNumToRecv.toNat - 1)) :
    Coherent { channel with receiver, accepted } where
  tracks := hcoherent.tracks
  data := hcoherent.data
  acks pkt hpkt := ⟨(hcoherent.acks pkt hpkt).1, (hcoherent.acks pkt hpkt).2.trans hge⟩
  recv_pos := hcoherent.recv_pos.trans hge
  recv_le := hle
  accepted_eq := haccepted
  head_le := hcoherent.head_le.trans hge
  released_eq := hcoherent.released_eq

theorem Coherent.sameCursor (hsame : receiver.nextSeqNumToRecv = channel.receiver.nextSeqNumToRecv) :
    Coherent { channel with receiver } :=
  hcoherent.withReceiver (hsame ▸ le_rfl) (hsame ▸ hcoherent.recv_le) (hsame ▸ hcoherent.accepted_eq)

omit hcoherent

theorem succ_ne_self (cursor : UInt32) : cursor ≠ cursor + 1 := by
  intro heq
  have htoNat : cursor.toNat = (cursor.toNat + 1) % 2 ^ 32 := by
    simpa [UInt32.toNat_add] using congrArg UInt32.toNat heq
  have hbound := cursor.toNat_lt
  omega

/-- The receiving end takes exactly the next packet of the sequence. -/
theorem Coherent.receiveData (hcoherent : channel.Coherent) (hservice : channel.InService) {fuel : ℕ}
    (hpkt : pkt ∈ channel.dataNet)
    (hrecv : channel.receiveData pkt fuel currentNs = some channel') : channel'.Coherent := by
  obtain ⟨⟨outcome, receiver⟩, hrecv, hsome⟩ := Option.bind_eq_some_iff.1 hrecv
  have hcarries := hcoherent.data pkt hpkt
  have hmagic : pkt.header.magicNum ≠ ackMagicNum := by
    rw [hcarries.magic]
    decide
  obtain ⟨-, -, -, hcursor⟩ := PeerToPeer.recv_data hmagic hrecv
  have hclean : (if outcome.message.isSome then receiver.cleanMsg.2 else receiver).nextSeqNumToRecv =
      receiver.nextSeqNumToRecv := by
    split <;> rfl
  cases hsome
  rcases hcursor with ⟨hnext, hadvance⟩ | ⟨-, hstay⟩
  · have hpos := hcoherent.recv_pos
    have hpayload := hcarries.payload
    rw [hnext] at hpayload
    obtain ⟨hlt, -⟩ := List.getElem?_eq_some_iff.1 hpayload
    have hcount := hservice.count
    have hsucc : (channel.receiver.nextSeqNumToRecv + 1).toNat =
        channel.receiver.nextSeqNumToRecv.toNat + 1 := by
      rw [UInt32.toNat_add]
      exact Nat.mod_eq_of_lt (by simp; omega)
    apply hcoherent.withReceiver
    · rw [hclean, hadvance, hsucc]
      omega
    · rw [hclean, hadvance, hsucc]
      omega
    · rw [hclean, hadvance, if_pos rfl, hsucc, hcoherent.accepted_eq]
      calc
        channel.pushed.take (channel.receiver.nextSeqNumToRecv.toNat - 1) ++ [pkt.payload] =
            channel.pushed.take (channel.receiver.nextSeqNumToRecv.toNat - 1 + 1) := by
          rw [List.take_add_one, hpayload]
          rfl
        _ = channel.pushed.take (channel.receiver.nextSeqNumToRecv.toNat + 1 - 1) := by
          congr 1
          omega
  · have hsame : receiver.nextSeqNumToRecv ≠ channel.receiver.nextSeqNumToRecv + 1 := by
      rw [hstay]
      exact succ_ne_self _
    rw [hclean, if_neg hsame]
    exact hcoherent.sameCursor (hclean.trans hstay)

/-- An acknowledgement carries the receiving end's cursor. -/
theorem Coherent.sendAck (hcoherent : channel.Coherent) {allocOk : Bool} {ack : Option (Segment Packet)}
    (hack : channel.receiver.getAckPkt allocOk = some (ack, receiver)) :
    Coherent { channel with receiver, ackNet := channel.ackNet ++ ack.toList } := by
  have hsent : receiver.nextSeqNumToRecv = channel.receiver.nextSeqNumToRecv ∧
      ∀ pkt ∈ ack, pkt.header.magicNum = ackMagicNum ∧
        pkt.header.seqNum = channel.receiver.nextSeqNumToRecv := by
    unfold PeerToPeer.getAckPkt at hack
    split at hack
    · cases hack
      exact ⟨rfl, by simp⟩
    · split at hack <;> cases hack
      exact ⟨rfl, by simp⟩
  have hsame := hcoherent.sameCursor hsent.1
  refine { hsame with acks := ?_ }
  intro pkt hpkt
  rcases List.mem_append.1 hpkt with hold | hnew
  · exact hsame.acks pkt hold
  · obtain ⟨hmagic, hseq⟩ := hsent.2 pkt (Option.mem_toList.1 hnew)
    exact ⟨hmagic, by rw [hseq, hsent.1]⟩

/-- An acknowledgement releases only packets that were accepted. -/
theorem Coherent.receiveAck (hN : ValidSize N) (hcoherent : channel.Coherent) {fuel : ℕ}
    {outcome : RecvOutcome} (hpkt : pkt ∈ channel.ackNet)
    (hrecv : channel.sender.recv fuel currentNs pkt = some (outcome, sender)) :
    Coherent { channel with sender, released := channel.released ++ outcome.released } := by
  obtain ⟨hmagic, hackLe⟩ := hcoherent.acks pkt hpkt
  obtain ⟨hpop, -⟩ := PeerToPeer.recv_ack hmagic hrecv
  obtain ⟨htracks, hhead, hreleased⟩ := hcoherent.tracks.pop hN hpop
  refine { hcoherent with tracks := htracks, head_le := ?_, released_eq := ?_ }
  · rcases hhead with hhead | hhead
    · rw [hhead]
      exact hcoherent.head_le
    · rw [hhead]
      exact hackLe
  · rw [List.map_append, hcoherent.released_eq]
    exact hreleased

/-- A step never brings a connection back up or forgets a pushed packet. -/
theorem inService_of_step {event : Event} (hstep : channel.step event = some channel')
    (hservice : channel'.InService) : channel.InService := by
  obtain ⟨hsender, hreceiver, hcount⟩ := hservice
  cases event with
  | push | pushBatch =>
    cases hstep
    refine ⟨hsender, hreceiver, lt_of_le_of_lt ?_ hcount⟩
    dsimp only
    split <;> simp
  | getWindowBatch | resetWindowPos =>
    cases hstep
    exact ⟨hsender, hreceiver, hcount⟩
  | checkSender =>
    cases hstep
    exact ⟨(PeerToPeer.check_of_up hsender).1, hreceiver, hcount⟩
  | checkReceiver =>
    cases hstep
    exact ⟨hsender, (PeerToPeer.check_of_up hreceiver).1, hcount⟩
  | deliverData =>
    simp only [step] at hstep
    split at hstep
    · obtain ⟨⟨outcome, receiver⟩, hrecv, hsome⟩ := Option.bind_eq_some_iff.1 hstep
      cases hsome
      refine ⟨hsender, ?_, hcount⟩
      rw [← PeerToPeer.recv_isConnectionUp hrecv]
      dsimp only at hreceiver
      split at hreceiver <;> exact hreceiver
    · cases hstep
  | getAckPkt =>
    obtain ⟨⟨ack, receiver⟩, hack, hsome⟩ := Option.bind_eq_some_iff.1 hstep
    cases hsome
    refine ⟨hsender, ?_, hcount⟩
    unfold PeerToPeer.getAckPkt at hack
    split at hack
    · cases hack
      exact hreceiver
    · split at hack <;> cases hack
      exact hreceiver
  | deliverAck =>
    simp only [step] at hstep
    split at hstep
    · obtain ⟨⟨outcome, sender⟩, hrecv, hsome⟩ := Option.bind_eq_some_iff.1 hstep
      cases hsome
      exact ⟨PeerToPeer.recv_isConnectionUp hrecv ▸ hsender, hreceiver, hcount⟩
    · cases hstep

theorem Coherent.step (hN : ValidSize N) {event : Event} (hcoherent : channel.Coherent)
    (hservice : channel.InService) (hservice' : channel'.InService)
    (hstep : channel.step event = some channel') : channel'.Coherent := by
  have hwf := hcoherent.tracks.wellFormed
  cases event with
  | push payload =>
    simp only [Channel.step, Option.some.injEq] at hstep
    subst hstep
    by_cases hfull : channel.sender.sendQueue.curSize = N
    · simpa [SendQueue.push_full payload hfull, withQueue] using hcoherent
    · have hroom : channel.sender.sendQueue.curSize < N := lt_of_le_of_ne hwf.size_le hfull
      have hpushed : (channel.sender.sendQueue.push payload).1 = true := by
        rw [SendQueue.push, if_neg hfull]
      rw [hpushed, if_pos rfl]
      apply hcoherent.extend (hcoherent.tracks.push hN payload hroom)
      rw [SendQueue.push, if_neg hfull]
  | pushBatch batch =>
    by_cases hfull : N < batch.length + channel.sender.sendQueue.curSize
    · simp only [Channel.step, SendQueue.pushBatch, if_pos hfull, Bool.false_eq_true, if_false,
        Option.some.injEq] at hstep
      exact hstep ▸ hcoherent
    · simp only [Channel.step, SendQueue.pushBatch, if_neg hfull, if_true, Option.some.injEq] at hstep
      subst hstep
      have hextend := hcoherent.tracks.foldl_push hN batch (not_lt.1 hfull)
      exact hcoherent.extend hextend (SendQueue.foldl_push_headSeqNum batch _)
  | getWindowBatch windowSize copyOk currentNs =>
    simp only [Channel.step, Option.some.injEq] at hstep
    subst hstep
    obtain ⟨sent, -, -, -, hbatch, hwf', hcontents, hhead, -⟩ :=
      SendQueue.getWindowBatch_spec hN hwf windowSize copyOk currentNs
    apply hcoherent.sendWindow hservice hwf' hcontents hhead
    intro pkt hpkt
    rw [hbatch] at hpkt
    exact List.mem_of_mem_drop (List.mem_of_mem_take hpkt)
  | resetWindowPos =>
    cases hstep
    exact hcoherent.rewind hservice
  | checkSender =>
    cases hstep
    obtain ⟨-, -, hqueue⟩ := PeerToPeer.check_of_up hservice'.senderUp
    rcases hqueue with hsame | hrewound
    · exact hcoherent.sameQueue hsame
    · exact (hcoherent.rewind hservice).sameQueue hrewound
  | checkReceiver =>
    cases hstep
    exact hcoherent.sameCursor (PeerToPeer.check_of_up hservice'.receiverUp).2.1
  | deliverData =>
    simp only [Channel.step] at hstep
    split at hstep
    next hpkt => exact hcoherent.receiveData hservice hpkt hstep
    next => cases hstep
  | getAckPkt =>
    obtain ⟨⟨ack, receiver⟩, hack, hsome⟩ := Option.bind_eq_some_iff.1 hstep
    cases hsome
    exact hcoherent.sendAck hack
  | deliverAck =>
    simp only [Channel.step] at hstep
    split at hstep
    next hpkt =>
      obtain ⟨⟨outcome, sender⟩, hrecv, hsome⟩ := Option.bind_eq_some_iff.1 hstep
      cases hsome
      exact hcoherent.receiveAck hN hpkt hrecv
    next => cases hstep

theorem coherent_of_reachable (hN : ValidSize N)
    (hreach : (system N).Reachable TransitionSystem.anyStep channel) (hservice : channel.InService) :
    channel.Coherent := by
  have hinv : channel.InService → channel.Coherent := by
    apply hreach.invariant
    · intro channel hinit _
      exact coherent_of_initial hN hinit
    · intro channel event channel' hcoherent _ hstep hservice'
      have hbefore := inService_of_step hstep hservice'
      exact (hcoherent hbefore).step hN hbefore hservice' hstep
  exact hinv hservice

/-- As long as a connection stays up and its numbering does not wrap, what is accepted is a prefix of what was
pushed, and what is released was accepted. -/
theorem delivery_exactly_once_in_order (hN : ValidSize N) {channel : Channel N}
    (hreach : (system N).Reachable TransitionSystem.anyStep channel) (hservice : channel.InService) :
    channel.accepted <+: channel.pushed ∧
      channel.released.map Segment.payload <+: channel.accepted := by
  have hcoherent := coherent_of_reachable hN hreach hservice
  have hheadLe := hcoherent.head_le
  constructor
  · rw [hcoherent.accepted_eq]
    exact List.take_prefix _ _
  · rw [hcoherent.released_eq, hcoherent.accepted_eq]
    exact List.take_prefix_take_left (by omega)

/-- A message of one packet: its header and the tag of a structure. -/
def shortMessage : Packet :=
  Packet.ofBytes 128 (littleEndian 14 0 ++ littleEndian 2 1 ++ littleEndian 8 SubMessage.cstruct.tag)

/-- Both ends as constructed, with empty headers and message buffers. -/
def fresh : Channel reliableSendQueueSize :=
  let p2p : PeerToPeer reliableSendQueueSize := PeerToPeer.init 1 0 [] 0
    (SendQueue.init (fun _ ↦ ⟨⟨[], 0, 0⟩, shortMessage⟩) (fun _ ↦ 0) (fun _ ↦ []))
    ⟨0, ⟨0, 0, 0, 0, 0⟩, none, [], none, []⟩
  ⟨p2p, p2p, [], [], [], [], []⟩

/-- A packet is pushed, sent, delivered twice and acknowledged. -/
def duplicatedDelivery : List Event :=
  let sent : Segment Packet := ⟨⟨[], msgMagicNum, 1⟩, shortMessage⟩
  let ack : Segment Packet := ⟨⟨[], ackMagicNum, 2⟩, Packet.ofBytes 0 []⟩
  [.push shortMessage, .getWindowBatch 32 (fun _ ↦ true) 0, .deliverData sent 1 0,
    .deliverData sent 1 0, .getAckPkt true, .deliverAck ack 0 0]

theorem duplicated_packet_delivered_once :
    ∃ channel : Channel reliableSendQueueSize,
      channel.accepted = [shortMessage] ∧ channel.released.map Segment.payload = [shortMessage] ∧
      channel.accepted <+: channel.pushed ∧
      channel.released.map Segment.payload <+: channel.accepted := by
  obtain ⟨channel, hchannel, haccepted, hreleased, hpushed, hsender, hreceiver⟩ :
      ∃ channel ∈ (system reliableSendQueueSize).run fresh duplicatedDelivery,
        channel.accepted = [shortMessage] ∧ channel.released.map Segment.payload = [shortMessage] ∧
        channel.pushed.length = 1 ∧ channel.sender.isConnectionUp = true ∧
        channel.receiver.isConnectionUp = true := by decide +kernel
  have hinit : fresh.Initial :=
    ⟨⟨_, _, _, _, _, _, _, _, rfl⟩, ⟨_, _, _, _, _, _, _, _, rfl⟩, rfl, rfl, rfl, rfl, rfl⟩
  exact ⟨channel, haccepted, hreleased, delivery_exactly_once_in_order
    validSize_reliableSendQueueSize (.replay hinit hchannel) ⟨hsender, hreceiver, by omega⟩⟩

end Channel

end NfvActor.Reliable
