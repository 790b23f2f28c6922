import Mathlib.Data.UInt
import Mathlib.Tactic
import NfvActor.Reliable.Sending

/-!
# A connection that is down

After `check` has given a connection up, the queue is empty and the expected sequence number is one that no
packet carries. Two overloads of `reliable_send` look at `is_connection_up_`; the one that replication uses does
not.
-/

namespace NfvActor.Reliable

open Foundation

/-- A call on a `reliable_p2p`. -/
inductive P2pCall
  | send (allocOk : Bool) (submission : Submission)
  | recv (fuel : ℕ) (currentNs : UInt64) (pkt : Segment Packet)
  | check (currentNs : UInt64)
  | getSendBatch (batchSize : ℕ) (copyOk : ℕ → Bool) (currentNs : UInt64)
  | getAckPkt (allocOk : Bool)

/-- A received packet is an acknowledgement or one of the first `2 ^ 32 - 2` packets of the peer. -/
def P2pCall.FromPeer : P2pCall → Prop
  | recv _ _ pkt => pkt.header.magicNum = ackMagicNum ∨
      1 ≤ pkt.header.seqNum.toNat ∧ pkt.header.seqNum.toNat < 2 ^ 32 - 1
  | _ => True

/-- The packets that a send pushed (none if it failed), the packets to be sent, and a complete message. -/
structure P2pReply where
  pushed : ℕ
  batch : List (Segment Packet)
  message : Option SingleMsg

/-- Nothing is accepted, sent or delivered. -/
def P2pReply.Quiet (reply : P2pReply) : Prop := reply.pushed = 0 ∧ reply.batch = [] ∧ reply.message = none

namespace PeerToPeer

variable {N : ℕ} {p2p p2p' : PeerToPeer N} {reply : P2pReply}

def perform (p2p : PeerToPeer N) : P2pCall → Option (P2pReply × PeerToPeer N)
  | .send allocOk submission => (p2p.overload allocOk submission).map fun (pushed, p2p) ↦
    (⟨pushed, [], none⟩, p2p)
  | .recv fuel currentNs pkt => (p2p.recv fuel currentNs pkt).map fun (outcome, p2p) ↦
    (⟨0, [], outcome.message⟩, p2p)
  | .check currentNs => some (⟨0, [], none⟩, (p2p.check currentNs).2)
  | .getSendBatch batchSize copyOk currentNs =>
    let (batch, sendQueue) := p2p.sendQueue.getWindowBatch batchSize copyOk currentNs
    some (⟨0, batch, none⟩, { p2p with sendQueue })
  | .getAckPkt allocOk => (p2p.getAckPkt allocOk).map fun (_, p2p) ↦ (⟨0, [], none⟩, p2p)

/-- The calls after a check that has declared the connection down. -/
def downSystem (N : ℕ) : TransitionSystem (PeerToPeer N) P2pCall where
  init p2p := ∃ (before : PeerToPeer N) (currentNs : UInt64), before.isConnectionUp = true ∧
    p2p = (before.check currentNs).2 ∧ p2p.isConnectionUp = false
  step p2p call := (p2p.perform call).map Prod.snd

/-- A send of flow states with a packet finds no room or cannot cut the packet. -/
def Refuses (p2p : PeerToPeer N) : P2pCall → Prop
  | .send allocOk (.replication _ fsStateBatch dpPkt) =>
    p2p.sendQueue.peekRemainingSize < totalPktNum fsStateBatch dpPkt ∨ createPacketSubMsg dpPkt allocOk = some []
  | _ => True

/-- The three signs of a connection that is down. -/
structure Down (p2p : PeerToPeer N) : Prop where
  flag : p2p.isConnectionUp = false
  empty : p2p.sendQueue.curSize = 0 ∧ p2p.sendQueue.pendingSendNum = 0
  expected : p2p.nextSeqNumToRecv = 0

theorem down_of_check {before : PeerToPeer N} {currentNs : UInt64} (hup : before.isConnectionUp = true)
    (hdown : (before.check currentNs).2.isConnectionUp = false) : (before.check currentNs).2.Down := by
  revert hdown
  unfold check
  split
  · dsimp only
    split
    · split
      · exact fun _ ↦ ⟨rfl, ⟨rfl, rfl⟩, rfl⟩
      · exact fun hdown ↦ Bool.noConfusion (hup.symm.trans hdown)
    · exact fun hdown ↦ Bool.noConfusion (hup.symm.trans hdown)
  · exact fun hdown ↦ Bool.noConfusion (hup.symm.trans hdown)

namespace Down

theorem check (h : p2p.Down) (currentNs : UInt64) : (p2p.check currentNs).2.Down := by
  unfold PeerToPeer.check
  split
  · have hcalm : ¬(p2p.lastCheckHeadSeqNum = p2p.sendQueue.headSeqNum.toUInt64 ∧ 0 < p2p.sendQueue.curSize) :=
      fun hstalled ↦ hstalled.2.ne' h.empty.1
    simp only [if_neg hcalm]
    exact ⟨h.flag, h.empty, h.expected⟩
  · exact h

theorem recv (h : p2p.Down) {fuel : ℕ} {currentNs : UInt64} {pkt : Segment Packet} {outcome : RecvOutcome}
    (hpeer : (P2pCall.recv fuel currentNs pkt).FromPeer)
    (hrecv : p2p.recv fuel currentNs pkt = some (outcome, p2p')) : outcome.message = none ∧ p2p'.Down := by
  unfold PeerToPeer.recv at hrecv
  split at hrecv
  · have hpop : p2p.sendQueue.pop pkt.header.seqNum currentNs = some ([], p2p.sendQueue) :=
      if_pos (.inl h.empty.1)
    rw [hpop] at hrecv
    cases hrecv
    exact ⟨rfl, h⟩
  · next hdata =>
    have hseq : pkt.header.seqNum ≠ p2p.nextSeqNumToRecv := by
      rw [h.expected]
      intro heq
      have hone := (hpeer.resolve_left hdata).1
      rw [heq] at hone
      exact absurd hone (by decide)
    rw [if_pos hseq] at hrecv
    cases hrecv
    unfold recvOutOfSequence
    split
    · exact ⟨rfl, h.flag, h.empty, h.expected⟩
    · exact ⟨rfl, h.flag, h.empty, h.expected⟩

theorem getAckPkt (h : p2p.Down) {allocOk : Bool} {ack : Option (Segment Packet)}
    (hack : p2p.getAckPkt allocOk = some (ack, p2p')) : p2p'.Down := by
  unfold PeerToPeer.getAckPkt at hack
  split at hack
  · cases hack
    exact h
  · split at hack
    · cases hack
      exact ⟨h.flag, h.empty, h.expected⟩
    · cases hack

theorem overload (h : p2p.Down) {allocOk : Bool} {submission : Submission} {pushed : ℕ}
    (hsend : p2p.overload allocOk submission = some (pushed, p2p')) :
    (pushed = 0 ↔ p2p.Refuses (.send allocOk submission)) ∧ (pushed = 0 → p2p' = p2p) := by
  cases submission with
  | cstruct =>
    rw [PeerToPeer.overload, reliableSendCstruct, if_pos (.inl h.flag)] at hsend
    cases hsend
    exact ⟨iff_of_true rfl trivial, fun _ ↦ rfl⟩
  | batch =>
    rw [PeerToPeer.overload, reliableSendBatch, if_pos (.inl h.flag)] at hsend
    cases hsend
    exact ⟨iff_of_true rfl trivial, fun _ ↦ rfl⟩
  | replication =>
    rw [PeerToPeer.overload, reliableSendReplication] at hsend
    split at hsend
    · next hroom =>
      cases hsend
      exact ⟨iff_of_true rfl (.inl hroom), fun _ ↦ rfl⟩
    · next hroom =>
      obtain ⟨dpPktBatch, hcreate, hrest⟩ := Option.bind_eq_some_iff.1 hsend
      split at hrest
      · next hempty =>
        cases hrest
        exact ⟨iff_of_true rfl (.inr (hempty ▸ hcreate)), fun _ ↦ rfl⟩
      · next hnonempty =>
        obtain ⟨encoded, -, hrest⟩ := Option.bind_eq_some_iff.1 hrest
        obtain ⟨message, -, hsome⟩ := Option.bind_eq_some_iff.1 hrest
        have hpushed : pushed ≠ 0 := by
          rw [← (Prod.mk.inj (Option.some.inj hsome)).1]
          have := List.length_pos_iff.2 hnonempty
          omega
        refine ⟨iff_of_false hpushed fun hrefuses ↦ ?_, fun hzero ↦ absurd hzero hpushed⟩
        rcases hrefuses with hfull | hnone
        · exact hroom hfull
        · exact hnonempty (Option.some.inj (hcreate.symm.trans hnone))

/-- A call on a connection that is down is quiet and leaves it down exactly when it is no send past the flag. -/
theorem perform (h : p2p.Down) {call : P2pCall} (hpeer : call.FromPeer)
    (hcall : p2p.perform call = some (reply, p2p')) :
    (reply.Quiet ↔ p2p.Refuses call) ∧ (p2p.Refuses call → p2p'.Down) := by
  cases call with
  | send =>
    obtain ⟨⟨pushed, after⟩, hsend, hreply⟩ := Option.map_eq_some_iff.1 hcall
    cases hreply
    have hspec := h.overload hsend
    rw [← hspec.1]
    refine ⟨⟨fun hquiet ↦ hquiet.1, fun hzero ↦ ⟨hzero, rfl, rfl⟩⟩, fun hzero ↦ ?_⟩
    rw [hspec.2 hzero]
    exact h
  | recv =>
    obtain ⟨⟨outcome, after⟩, hrecv, hreply⟩ := Option.map_eq_some_iff.1 hcall
    cases hreply
    have hspec := h.recv hpeer hrecv
    exact ⟨iff_of_true ⟨rfl, rfl, hspec.1⟩ trivial, fun _ ↦ hspec.2⟩
  | check currentNs =>
    cases hcall
    exact ⟨iff_of_true ⟨rfl, rfl, rfl⟩ trivial, fun _ ↦ h.check currentNs⟩
  | getSendBatch batchSize =>
    have hwindow : (if p2p.sendQueue.pendingSendNum < batchSize then p2p.sendQueue.pendingSendNum
        else batchSize) = 0 := by
      rw [h.empty.2]
      split <;> omega
    simp only [PeerToPeer.perform, SendQueue.getWindowBatch, hwindow, SendQueue.copyLoop, Option.some.injEq,
      Prod.mk.injEq] at hcall
    obtain ⟨rfl, rfl⟩ := hcall
    exact ⟨iff_of_true ⟨rfl, rfl, rfl⟩ trivial, fun _ ↦ ⟨h.flag, ⟨h.empty.1, h.empty.2⟩, h.expected⟩⟩
  | getAckPkt =>
    obtain ⟨⟨ack, after⟩, hack, hreply⟩ := Option.map_eq_some_iff.1 hcall
    cases hreply
    exact ⟨iff_of_true ⟨rfl, rfl, rfl⟩ trivial, fun _ ↦ h.getAckPkt hack⟩

end Down

/-- In every run without a send past the flag the queue is empty. The next call accepts, sends and delivers
nothing and leaves the queue empty exactly when it is no such send. -/
theorem down_stays_down
    (hreach : (downSystem N).Reachable (fun p2p call ↦ call.FromPeer ∧ p2p.Refuses call) p2p) :
    p2p.sendQueue.curSize = 0 ∧ ∀ call reply p2p', call.FromPeer → p2p.perform call = some (reply, p2p') →
      (reply.Quiet ∧ p2p'.sendQueue.curSize = 0 ↔ p2p.Refuses call) := by
  have hdown : p2p.Down := by
    apply hreach.invariant
    · intro p2p hinit
      obtain ⟨before, currentNs, hup, rfl, hdown⟩ := hinit
      exact down_of_check hup hdown
    · intro p2p call p2p' hdown hguard hstep
      obtain ⟨⟨reply, after⟩, hcall, rfl⟩ := Option.map_eq_some_iff.1 hstep
      exact (hdown.perform hguard.1 hcall).2 hguard.2
  refine ⟨hdown.empty.1, fun call reply p2p' hpeer hcall ↦ ?_⟩
  have hspec := hdown.perform hpeer hcall
  exact ⟨fun hquiet ↦ hspec.1.1 hquiet.1, fun hrefuses ↦ ⟨hspec.1.2 hrefuses, (hspec.2 hrefuses).empty.1⟩⟩

/-- A connection with one queued packet after the last of five thousand fruitless checks. -/
def givenUp : PeerToPeer 4 :=
  (PeerToPeer.check { almostDown with consecutiveCounter := 4999 } (2 ^ 40)).2
where
  almostDown : PeerToPeer 4 :=
    PeerToPeer.pushAll (.init 2 0 [] 0 (.init (fun _ ↦ ⟨⟨[], 0, 0⟩, .ofBytes 0 []⟩) (fun _ ↦ 0) fun _ ↦ [])
      ⟨2, .ofPacket (.ofBytes 0 []), none, [], none, []⟩) [.ofBytes 128 [1]]

theorem givenUp_start : (downSystem 4).init givenUp :=
  ⟨{ givenUp.almostDown with consecutiveCounter := 4999 }, 2 ^ 40, rfl, rfl, by decide +kernel⟩

theorem down_stays_down_at_once :
    givenUp.sendQueue.curSize = 0 ∧ ∀ call reply p2p', call.FromPeer → givenUp.perform call = some (reply, p2p') →
      (reply.Quiet ∧ p2p'.sendQueue.curSize = 0 ↔ givenUp.Refuses call) :=
  down_stays_down (.start givenUp_start)

/-- The connection is down, but two packets of a replication message are accepted and sent. -/
theorem replication_send_when_down :
    (downSystem 4).init givenUp ∧ ∃ reply p2p' sent p2p'',
      givenUp.perform (.send true (.replication ⟨1, 2, 3, 4⟩ [.ofBytes 128 [5]] (.ofBytes 128 [6]))) =
        some (reply, p2p') ∧
      reply.pushed = 2 ∧ p2p'.isConnectionUp = false ∧ p2p'.sendQueue.curSize = 2 ∧
      p2p'.perform (.getSendBatch 32 (fun _ ↦ true) (2 ^ 41)) = some (sent, p2p'') ∧ sent.batch.length = 2 := by
  exact ⟨givenUp_start, _, _, _, _, rfl, rfl, rfl, rfl, rfl, rfl⟩

end PeerToPeer

end NfvActor.Reliable
