import Mathlib.Tactic
import NfvActor.Reliable.Reassembly
import NfvActor.Reliable.Sending

/-!
# Received packets over whole runs

A connection whose peer only sends structures and batches of flow states, over a network that loses, repeats and
reorders packets. `check` may give the connection up at any time; `reset` then clears `batch_` without
collecting the packets of an unfinished message.
-/

namespace NfvActor.Reliable

open NfvActor.Foundation
open Option (bind_eq_some_iff map_eq_some_iff)

/-- What arrives: a packet that the peer has sent, or an acknowledgement. -/
inductive Arrival
  | sent (index : ℕ)
  | acknowledgement (seqNum : UInt32)

/-- The inputs of a connection. The network delivers any packets that were sent. -/
inductive EndpointInput (ι : Type)
  | peer (input : SenderInput)
  | recv (fuel : ℕ) (currentNs : UInt64) (arrival : Arrival) (held : Held ι)
  | clean
  | check (currentNs : UInt64)
  | send (allocOk : Bool) (submission : Submission)
  | getSendBatch (batchSize : ℕ) (copyOk : ℕ → Bool) (currentNs : UInt64)
  | getAckPkt (allocOk : Bool)

/-- A connection and its peer. `receiver` follows the packets in the receiving half of `p2p`; `returned`: a
message was returned and not cleaned; the lists record the packets given to `recv` and those collected. -/
structure Endpoint (N : ℕ) (ι : Type) where
  peer : SenderRun N
  p2p : PeerToPeer N
  receiver : Receiver ι
  returned : Bool
  given : List ι
  collected : List ι

section

variable {ι : Type} {N : ℕ}

/-- The packet that arrives. -/
def Arrival.segment (wire : List (Segment Packet)) : Arrival → Option (Segment Packet)
  | sent index => wire[index]?
  | acknowledgement seqNum => some ⟨⟨[], ackMagicNum, seqNum⟩, Packet.ofBytes 0 []⟩

/-- The check is the last fruitless one, and gives the connection up. -/
def PeerToPeer.GivesUp (p2p : PeerToPeer N) (currentNs : UInt64) : Prop :=
  p2p.nextCheckTime < currentNs ∧
    (p2p.lastCheckHeadSeqNum = p2p.sendQueue.headSeqNum.toUInt64 ∧ 0 < p2p.sendQueue.curSize) ∧
    p2p.consecutiveCounter + 1 = downThreshold

instance (p2p : PeerToPeer N) (currentNs : UInt64) : Decidable (p2p.GivesUp currentNs) :=
  inferInstanceAs (Decidable (_ ∧ _))

/-- `reset` on the receiving half, with what goes to the collector. -/
def Receiver.bringDown (receiver : Receiver ι) : List ι × Receiver ι :=
  (receiver.curMsg.clean.1,
    { receiver with
      nextSeqNumToRecv := 0
      nextSeqNumToRecvSnapshot := 0
      batch := []
      curMsg := receiver.curMsg.clean.2 })

namespace Endpoint

/-- One call. While a message is processed nothing is received or checked. -/
def step (endpoint : Endpoint N ι) : EndpointInput ι → Option (Endpoint N ι)
  | .peer input => (endpoint.peer.step input).map fun peer ↦ { endpoint with peer }
  | .recv fuel currentNs arrival held => do
    let segment ← arrival.segment endpoint.peer.wire
    if endpoint.returned = false ∧ segment.ArrivesAs held.pkt then
      let reception ← endpoint.receiver.recv fuel held
      let (_, p2p) ← endpoint.p2p.recv fuel currentNs (segment.received held.pkt)
      some { endpoint with
        p2p
        receiver := reception.receiver
        returned := reception.message.isSome
        given := endpoint.given ++ [held.handle]
        collected := endpoint.collected ++ reception.collected }
    else
      none
  | .clean =>
    if endpoint.returned then
      some { endpoint with
        p2p := endpoint.p2p.cleanMsg.2
        receiver := endpoint.receiver.cleanMsg.2
        returned := false
        collected := endpoint.collected ++ endpoint.receiver.cleanMsg.1 }
    else
      none
  | .check currentNs =>
    if endpoint.returned then
      none
    else if endpoint.p2p.GivesUp currentNs then
      some { endpoint with
        p2p := (endpoint.p2p.check currentNs).2
        receiver := endpoint.receiver.bringDown.2
        collected := endpoint.collected ++ endpoint.receiver.bringDown.1 }
    else
      some { endpoint with p2p := (endpoint.p2p.check currentNs).2 }
  | .send allocOk submission =>
    (endpoint.p2p.overload allocOk submission).map fun (_, p2p) ↦ { endpoint with p2p }
  | .getSendBatch batchSize copyOk currentNs =>
    some { endpoint with p2p := { endpoint.p2p with
      sendQueue := (endpoint.p2p.sendQueue.getWindowBatch batchSize copyOk currentNs).2 } }
  | .getAckPkt allocOk => (endpoint.p2p.getAckPkt allocOk).map fun (_, p2p) ↦
    { endpoint with
      p2p
      receiver := { endpoint.receiver with
        nextSeqNumToRecvSnapshot := endpoint.receiver.nextSeqNumToRecv } }

/-- Runs start with a new connection on both sides. -/
def system (N : ℕ) (ι : Type) : TransitionSystem (Endpoint N ι) (EndpointInput ι) where
  init endpoint := (SenderRun.system N).init endpoint.peer ∧
    ∃ destRtid outputGate ackFrame currentNs ringBuf sendTime rh, ∃ curMsg : HeldMsg ι,
      curMsg.fsMsgBatch = [] ∧ curMsg.garbage = [] ∧ curMsg.sendRuntimeId = destRtid ∧
      endpoint.p2p = .init destRtid outputGate ackFrame currentNs (.init ringBuf sendTime rh) curMsg.erase ∧
      endpoint.receiver = ⟨1, 1, 0, [], curMsg⟩ ∧
      endpoint.returned = false ∧ endpoint.given = [] ∧ endpoint.collected = []
  step := step

/-- Each packet given to `recv` was collected once, is in the batch, or is in the garbage of a message returned
and not cleaned. -/
structure Owned (endpoint : Endpoint N ι) : Prop where
  places : endpoint.given.Perm (endpoint.collected ++ Held.handles endpoint.receiver.batch ++
    Held.handles endpoint.receiver.curMsg.garbage)
  cleaned : endpoint.returned = false → endpoint.receiver.curMsg.garbage = []

/-- The numbers on the wire have not wrapped, and no check gives up in the middle of a message. -/
def Unbroken (endpoint : Endpoint N ι) : EndpointInput ι → Prop
  | .recv _ _ _ _ => endpoint.peer.wire.length < 2 ^ 32
  | .check currentNs => endpoint.p2p.GivesUp currentNs → endpoint.receiver.batch = []
  | _ => True

/-- The invariant of unbroken runs. -/
structure Tracked (endpoint : Endpoint N ι) : Prop where
  streamed : endpoint.peer.Streamed
  follows : ∃ packets, endpoint.peer.Encodes packets ∧ endpoint.receiver.Follows packets
  settled : endpoint.receiver.cleanMsg.2.Settled
  between : endpoint.returned = false → endpoint.receiver.Settled
  mirrors : endpoint.receiver.Mirrors endpoint.p2p
  owned : endpoint.Owned

theorem places_recv {receiver : Receiver ι} {handle : ι} {reception : Reception ι}
    (h : Receiver.Delivered true (Held.handles receiver.batch ++ [handle]) reception) :
    (reception.collected ++ Held.handles reception.receiver.batch ++
      Held.handles reception.receiver.curMsg.garbage).Perm (Held.handles receiver.batch ++ [handle]) := by
  cases hmessage : reception.message with
  | none =>
    obtain ⟨hperm, hsettled⟩ := h.refused hmessage
    rw [hsettled.garbage, Held.handles_nil, List.append_nil]
    exact hperm
  | some msg =>
    obtain ⟨hcollected, hbatch, hmsg, kept, -, hkept, -, hperm⟩ := h.returned msg hmessage
    rw [hkept rfl, List.append_nil] at hperm
    rw [hcollected, hbatch, hmsg]
    exact hperm

namespace Tracked

variable {endpoint endpoint' : Endpoint N ι} {p2p : PeerToPeer N} {segment : Segment Packet} {held : Held ι}
  {currentNs : UInt64}

/-- A call that only concerns the sending half. -/
theorem of_mirrors (h : endpoint.Tracked) (hmirrors : endpoint.receiver.Mirrors p2p) :
    Tracked { endpoint with p2p } :=
  ⟨h.streamed, h.follows, h.settled, h.between, hmirrors, h.owned.places, h.owned.cleaned⟩

theorem peer (hN : ValidSize N) (h : endpoint.Tracked) {input : SenderInput}
    (hstep : endpoint.step (.peer input) = some endpoint') : endpoint'.Tracked := by
  obtain ⟨peer, hpeer, rfl⟩ := map_eq_some_iff.1 hstep
  obtain ⟨packets, hencodes, hfollows⟩ := h.follows
  obtain ⟨more, hmore⟩ := hencodes.step hN h.streamed.wellFormed hpeer
  exact ⟨h.streamed.step hN hpeer, ⟨_, hmore, hfollows.append more⟩, h.settled, h.between, h.mirrors,
    h.owned.places, h.owned.cleaned⟩

variable (h : endpoint.Tracked)

include h

theorem arrives (hcount : endpoint.peer.wire.length < 2 ^ 32) {arrival : Arrival}
    (hsegment : arrival.segment endpoint.peer.wire = some segment) (harrives : segment.ArrivesAs held.pkt) :
    endpoint.receiver.CountsAddUp true held ∧ ∀ fuel reception,
      endpoint.receiver.recv fuel held = some reception →
        ∃ packets, endpoint.peer.Encodes packets ∧ reception.receiver.Follows packets := by
  obtain ⟨packets, hencodes, hfollows⟩ := h.follows
  cases arrival with
  | sent =>
    obtain ⟨hcounts, hrecv⟩ := hfollows.recv (announced_of_encodes hencodes.1) h.streamed.sequence hencodes.2
      hcount hsegment harrives
    exact ⟨hcounts, fun fuel reception hreception ↦ ⟨packets, hencodes, hrecv fuel reception hreception⟩⟩
  | acknowledgement =>
    cases hsegment
    have hexpects : ¬endpoint.receiver.Expects held := fun hexpects ↦ hexpects.1 harrives.read_magicNum
    refine ⟨fun hexpected ↦ absurd hexpected hexpects, fun fuel reception hreception ↦ ⟨packets, hencodes, ?_⟩⟩
    obtain ⟨hbatch, hmsg, hnext⟩ := Receiver.recv_unexpected hexpects hreception
    exact hfollows.of_same hbatch (by rw [hmsg]) hnext

theorem mirrors_recv (harrives : segment.ArrivesAs held.pkt) {fuel : ℕ} {reception : Reception ι}
    (hreception : endpoint.receiver.recv fuel held = some reception) {outcome : RecvOutcome}
    (hp2p : endpoint.p2p.recv fuel currentNs (segment.received held.pkt) = some (outcome, p2p)) :
    reception.receiver.Mirrors p2p := by
  by_cases hmagic : segment.header.magicNum = ackMagicNum
  · rw [Receiver.recv, if_pos (harrives.read_magicNum.trans hmagic)] at hreception
    cases hreception
    have hack : (segment.received held.pkt).header.magicNum = ackMagicNum := hmagic
    rw [(PeerToPeer.recv_ack hack hp2p).2]
    exact h.mirrors.of_sendQueue _
  · obtain ⟨outcome', p2p', hp2p', hmirrors, -⟩ := h.mirrors.recv harrives hmagic hreception currentNs
    rw [hp2p] at hp2p'
    cases hp2p'
    exact hmirrors

theorem recv (hcount : endpoint.peer.wire.length < 2 ^ 32) {fuel : ℕ} {arrival : Arrival}
    (hstep : endpoint.step (.recv fuel currentNs arrival held) = some endpoint') : endpoint'.Tracked := by
  obtain ⟨segment, hsegment, hrest⟩ := bind_eq_some_iff.1 hstep
  split at hrest
  next hpossible =>
    obtain ⟨hreturned, harrives⟩ := hpossible
    obtain ⟨reception, hreception, hrest⟩ := bind_eq_some_iff.1 hrest
    obtain ⟨⟨outcome, p2p⟩, hp2p, hsome⟩ := bind_eq_some_iff.1 hrest
    cases hsome
    obtain ⟨hcounts, hfollows⟩ := h.arrives hcount hsegment harrives
    obtain ⟨rounds, reception', hrounds, hdelivered⟩ := (h.between hreturned).recv hcounts
    have hsame : reception = reception' := by
      have hmore := Receiver.recv_of_le (le_max_left fuel rounds) hreception
      rw [hrounds (max fuel rounds) (le_max_right fuel rounds)] at hmore
      exact (Option.some.inj hmore).symm
    rw [← hsame] at hdelivered
    have hplaces := places_recv hdelivered
    have hgiven := h.owned.places
    rw [h.owned.cleaned hreturned, Held.handles_nil, List.append_nil] at hgiven
    have hbetween : reception.message.isSome = false → reception.receiver.Settled := fun hnone ↦
      (hdelivered.refused (Option.isNone_iff_eq_none.1 (by simpa using hnone))).2
    refine ⟨h.streamed, hfollows fuel reception hreception, hdelivered.settled, hbetween,
      h.mirrors_recv harrives hreception hp2p, ?_, fun hnone ↦ (hbetween hnone).garbage⟩
    calc
      (endpoint.given ++ [held.handle]).Perm
          (endpoint.collected ++ Held.handles endpoint.receiver.batch ++ [held.handle]) :=
        hgiven.append_right _
      _ = endpoint.collected ++ (Held.handles endpoint.receiver.batch ++ [held.handle]) :=
        List.append_assoc _ _ _
      List.Perm _ (endpoint.collected ++ (reception.collected ++ Held.handles reception.receiver.batch ++
          Held.handles reception.receiver.curMsg.garbage)) := hplaces.symm.append_left _
      _ = _ := by simp only [List.append_assoc]
  next => cases hrest

theorem clean (hstep : endpoint.step .clean = some endpoint') : endpoint'.Tracked := by
  rw [step] at hstep
  split at hstep
  · cases hstep
    obtain ⟨packets, hencodes, hfollows⟩ := h.follows
    refine ⟨h.streamed, ⟨packets, hencodes, hfollows.of_same rfl rfl rfl⟩, h.settled, fun _ ↦ h.settled, ?_, ?_,
      fun _ ↦ rfl⟩
    · refine ⟨h.mirrors.nextSeqNumToRecv, h.mirrors.nextSeqNumToRecvSnapshot, h.mirrors.errorCounter,
        h.mirrors.batch, ?_⟩
      rw [PeerToPeer.cleanMsg, h.mirrors.curMsg]
      rfl
    · have hplaces := h.owned.places
      simp only [Receiver.cleanMsg, HeldMsg.clean, Held.handles_nil, List.append_nil]
      refine hplaces.trans ?_
      rw [List.append_assoc, List.append_assoc]
      exact List.Perm.append_left _ List.perm_append_comm
  · cases hstep

/-- A check that does not give up leaves the receiver alone. -/
theorem mirrors_check (hup : ¬endpoint.p2p.GivesUp currentNs) :
    endpoint.receiver.Mirrors (endpoint.p2p.check currentNs).2 := by
  obtain ⟨hnext, hsnapshot, herror, hbatch, hmsg⟩ := h.mirrors
  unfold PeerToPeer.check
  split
  next hdue =>
    dsimp only
    split
    next hstalled =>
      split
      next hdown => exact absurd ⟨hdue, hstalled, hdown⟩ hup
      next => exact ⟨hnext, hsnapshot, herror, hbatch, hmsg⟩
    next => exact ⟨hnext, hsnapshot, herror, hbatch, hmsg⟩
  next => exact ⟨hnext, hsnapshot, herror, hbatch, hmsg⟩

theorem mirrors_bringDown (hdown : endpoint.p2p.GivesUp currentNs) :
    endpoint.receiver.bringDown.2.Mirrors (endpoint.p2p.check currentNs).2 := by
  obtain ⟨hdue, hstalled, hcounter⟩ := hdown
  simp only [PeerToPeer.check, if_pos hdue, if_pos hstalled, if_pos hcounter]
  refine ⟨rfl, rfl, h.mirrors.errorCounter, rfl, ?_⟩
  dsimp only [PeerToPeer.bringDown, PeerToPeer.reset, Receiver.bringDown]
  rw [h.mirrors.curMsg]
  rfl

theorem check (hwhole : endpoint.p2p.GivesUp currentNs → endpoint.receiver.batch = [])
    (hstep : endpoint.step (.check currentNs) = some endpoint') : endpoint'.Tracked := by
  rw [step] at hstep
  split at hstep
  · cases hstep
  next hreturned =>
    rw [Bool.not_eq_true] at hreturned
    split at hstep
    next hdown =>
      cases hstep
      obtain ⟨packets, hencodes, -⟩ := h.follows
      refine ⟨h.streamed, ⟨packets, hencodes, .inl ⟨rfl, rfl⟩⟩, ⟨rfl, rfl, .inl rfl⟩,
        fun _ ↦ ⟨rfl, rfl, .inl rfl⟩, h.mirrors_bringDown hdown, ?_, fun _ ↦ rfl⟩
      have hplaces := h.owned.places
      rw [hwhole hdown, h.owned.cleaned hreturned] at hplaces
      simpa [Receiver.bringDown, HeldMsg.clean, h.owned.cleaned hreturned] using hplaces
    next hup =>
      cases hstep
      exact h.of_mirrors (h.mirrors_check hup)

theorem getAckPkt {allocOk : Bool} {pkt : Option (Segment Packet)}
    (hack : endpoint.p2p.getAckPkt allocOk = some (pkt, p2p)) :
    Tracked { endpoint with
      p2p
      receiver := { endpoint.receiver with
        nextSeqNumToRecvSnapshot := endpoint.receiver.nextSeqNumToRecv } } := by
  obtain ⟨packets, hencodes, hfollows⟩ := h.follows
  obtain ⟨hnext, hsnapshot, herror, hbatch, hmsg⟩ := h.mirrors
  refine ⟨h.streamed, ⟨packets, hencodes, hfollows.of_same rfl rfl rfl⟩, ⟨rfl, rfl, h.settled.unfinished⟩,
    fun hreturned ↦ ?_, ?_, h.owned.places, h.owned.cleaned⟩
  · obtain ⟨hfs, hgarbage, hunfinished⟩ := h.between hreturned
    exact ⟨hfs, hgarbage, hunfinished⟩
  · unfold PeerToPeer.getAckPkt at hack
    split at hack
    next hsame =>
      cases hack
      exact ⟨hnext, hsame.trans hnext, herror, hbatch, hmsg⟩
    next =>
      split at hack
      · cases hack
        exact ⟨hnext, hnext, herror, hbatch, hmsg⟩
      · cases hack

end Tracked

theorem overload_frame {p2p p2p' : PeerToPeer N} {allocOk : Bool} {submission : Submission} {count : ℕ}
    (h : p2p.overload allocOk submission = some (count, p2p')) :
    ∃ sendQueue, p2p' = { p2p with sendQueue } := by
  cases submission with
  | cstruct =>
    rw [PeerToPeer.overload, PeerToPeer.reliableSendCstruct] at h
    split at h
    · cases h
      exact ⟨_, rfl⟩
    · split at h
      · obtain ⟨pkt, -, hsome⟩ := bind_eq_some_iff.1 h
        cases hsome
        exact ⟨_, rfl⟩
      · cases h
        exact ⟨_, rfl⟩
  | batch =>
    rw [PeerToPeer.overload, PeerToPeer.reliableSendBatch] at h
    split at h
    · cases h
      exact ⟨_, rfl⟩
    · obtain ⟨encoded, -, hrest⟩ := bind_eq_some_iff.1 h
      obtain ⟨message, -, hsome⟩ := bind_eq_some_iff.1 hrest
      cases hsome
      exact ⟨_, rfl⟩
  | replication =>
    rw [PeerToPeer.overload, PeerToPeer.reliableSendReplication] at h
    split at h
    · cases h
      exact ⟨_, rfl⟩
    · obtain ⟨dpPktBatch, -, hrest⟩ := bind_eq_some_iff.1 h
      split at hrest
      · cases hrest
        exact ⟨_, rfl⟩
      · obtain ⟨encoded, -, hrest⟩ := bind_eq_some_iff.1 hrest
        obtain ⟨message, -, hsome⟩ := bind_eq_some_iff.1 hrest
        cases hsome
        exact ⟨_, rfl⟩

variable {endpoint endpoint' : Endpoint N ι} {checks time : ℕ}

theorem tracked_of_reachable (hN : ValidSize N)
    (hreach : (system N ι).Reachable Unbroken endpoint) : endpoint.Tracked := by
  apply hreach.invariant
  · rintro ⟨peer, p2p, receiver, returned, given, collected⟩ ⟨hpeer, destRtid, outputGate, ackFrame, currentNs,
      ringBuf, sendTime, rh, curMsg, hfs, hgarbage, hrtid, rfl, rfl, rfl, rfl, rfl⟩
    have hstart : (SenderRun.system N).Reachable TransitionSystem.anyStep peer := .start hpeer
    obtain ⟨_, _, _, _, _, _, _, _, rfl⟩ := hpeer
    refine ⟨SenderRun.Streamed.of_reachable hN hstart, ⟨[], ⟨.nil, rfl⟩, .inr ⟨0, ⟨[], [], rfl, rfl, .inl rfl⟩, rfl⟩⟩,
      ⟨rfl, rfl, .inl rfl⟩, fun _ ↦ ⟨hfs, hgarbage, .inl rfl⟩, ⟨rfl, rfl, rfl, rfl, ?_⟩, ?_, fun _ ↦ hgarbage⟩
    · simp [PeerToPeer.init, HeldMsg.erase, hfs, hgarbage, hrtid]
    · rw [hgarbage]
      exact .nil
  · intro endpoint input endpoint' h hguard hstep
    cases input with
    | peer => exact h.peer hN hstep
    | recv => exact h.recv hguard hstep
    | clean => exact h.clean hstep
    | check => exact h.check hguard hstep
    | send =>
      obtain ⟨⟨count, p2p⟩, hsend, rfl⟩ := map_eq_some_iff.1 hstep
      obtain ⟨sendQueue, rfl⟩ := overload_frame hsend
      exact h.of_mirrors (h.mirrors.of_sendQueue sendQueue)
    | getSendBatch =>
      cases hstep
      exact h.of_mirrors (h.mirrors.of_sendQueue _)
    | getAckPkt =>
      obtain ⟨⟨pkt, p2p⟩, hack, rfl⟩ := map_eq_some_iff.1 hstep
      exact h.getAckPkt hack

/-- A check keeps the packets accounted for exactly if it drops no message that was begun. -/
theorem Tracked.owned_check (h : endpoint.Tracked) {currentNs : UInt64}
    (hstep : endpoint.step (.check currentNs) = some endpoint') :
    endpoint'.Owned ↔ (endpoint.p2p.GivesUp currentNs → endpoint.receiver.batch = []) := by
  refine ⟨fun howned hdown ↦ ?_, fun hwhole ↦ (h.check hwhole hstep).owned⟩
  rw [step] at hstep
  split at hstep
  · cases hstep
  next hreturned =>
    cases hstep
    rw [Bool.not_eq_true] at hreturned
    have hbefore := h.owned.places.length_eq
    have hafter := howned.places.length_eq
    simp only [Receiver.bringDown, HeldMsg.clean, h.owned.cleaned hreturned, Held.handles, List.map_nil,
      List.append_nil, List.length_append, List.length_map] at hbefore hafter
    exact List.eq_nil_of_length_eq_zero (by omega)

/-- In every unbroken run each packet given to `recv` is in one place, and `recv` returns on every packet from
the peer. A check keeps this exactly if it does not give up in the middle of a message. -/
theorem received_packets_owned (hN : ValidSize N) (hreach : (system N ι).Reachable Unbroken endpoint) :
    endpoint.Owned ∧
      (∀ currentNs endpoint', endpoint.step (.check currentNs) = some endpoint' →
        (endpoint'.Owned ↔ (endpoint.p2p.GivesUp currentNs → endpoint.receiver.batch = []))) ∧
      (endpoint.returned = false → endpoint.peer.wire.length < 2 ^ 32 →
        ∀ index segment, endpoint.peer.wire[index]? = some segment →
        ∀ held : Held ι, segment.ArrivesAs held.pkt → ∀ currentNs,
          ∃ rounds, ∀ fuel ≥ rounds, ∃ endpoint',
            endpoint.step (.recv fuel currentNs (.sent index) held) = some endpoint') := by
  have h := tracked_of_reachable hN hreach
  refine ⟨h.owned, fun currentNs endpoint' hstep ↦ h.owned_check hstep, ?_⟩
  intro hreturned hcount index segment hindex held harrives currentNs
  have hsegment : (Arrival.sent index).segment endpoint.peer.wire = some segment := hindex
  obtain ⟨rounds, reception, hreception, -⟩ := (h.between hreturned).recv (h.arrives hcount hsegment harrives).1
  have hmagic : segment.header.magicNum ≠ ackMagicNum := by
    rw [(h.streamed.sequence.getElem hindex).1]
    decide
  refine ⟨rounds, fun fuel hfuel ↦ ?_⟩
  obtain ⟨outcome, p2p, hp2p, -⟩ := h.mirrors.recv harrives hmagic (hreception fuel hfuel) currentNs
  rw [step, hsegment]
  simp only [Option.bind_eq_bind, Option.bind_some, hreception fuel hfuel, hp2p]
  rw [if_pos ⟨hreturned, harrives⟩]
  exact ⟨_, rfl⟩

/-! ## Fruitless checks -/

/-- The connection waits for an acknowledgement, after some checks that found none. -/
structure Stalled (endpoint : Endpoint N ι) (checks time : ℕ) : Prop where
  returned : endpoint.returned = false
  head : endpoint.p2p.lastCheckHeadSeqNum = endpoint.p2p.sendQueue.headSeqNum.toUInt64
  queued : 0 < endpoint.p2p.sendQueue.curSize
  rtt : endpoint.p2p.sendQueue.rtt = defaultRtt
  counter : endpoint.p2p.consecutiveCounter = UInt64.ofNat checks
  time : endpoint.p2p.nextCheckTime = UInt64.ofNat time

/-- The time from one check to the next. -/
def checkInterval : ℕ := 100001

theorem lt_next (h : time + 1 < 2 ^ 64) : UInt64.ofNat time < UInt64.ofNat (time + 1) := by
  rw [UInt64.lt_iff_toNat_lt, UInt64.toNat_ofNat', UInt64.toNat_ofNat', Nat.mod_eq_of_lt (by omega),
    Nat.mod_eq_of_lt h]
  exact Nat.lt_succ_self _

theorem counter_succ (checks : ℕ) : UInt64.ofNat checks + 1 = UInt64.ofNat (checks + 1) := by
  rw [UInt64.ofNat_add]
  rfl

theorem counter_eq_iff (h : checks < 2 ^ 64) : UInt64.ofNat checks = downThreshold ↔ checks = 5000 := by
  rw [← UInt64.toNat_inj, UInt64.toNat_ofNat', Nat.mod_eq_of_lt h]
  rfl

variable (h : endpoint.Stalled checks time)

include h

theorem Stalled.givesUp (htime : time + 1 < 2 ^ 64) (hchecks : checks < 5000) :
    endpoint.p2p.GivesUp (UInt64.ofNat (time + 1)) ↔ checks + 1 = 5000 := by
  rw [PeerToPeer.GivesUp, h.time, h.counter, counter_succ, counter_eq_iff (by omega)]
  exact ⟨fun hdown ↦ hdown.2.2, fun hlast ↦ ⟨lt_next htime, ⟨h.head, h.queued⟩, hlast⟩⟩

/-- A fruitless check that is not the last one. -/
theorem Stalled.check (htime : time + 1 < 2 ^ 64) (hchecks : checks + 1 < 5000) :
    ∃ endpoint', endpoint.step (.check (UInt64.ofNat (time + 1))) = some endpoint' ∧
      endpoint'.Stalled (checks + 1) (time + checkInterval) ∧ endpoint'.receiver = endpoint.receiver ∧
      endpoint'.given = endpoint.given ∧ endpoint'.collected = endpoint.collected := by
  have hup := (h.givesUp htime (by omega)).not.2 (by omega)
  refine ⟨{ endpoint with p2p := (endpoint.p2p.check (UInt64.ofNat (time + 1))).2 }, ?_, ?_, rfl, rfl, rfl⟩
  · rw [step, h.returned, if_neg Bool.false_ne_true, if_neg hup]
  · have hdue : endpoint.p2p.nextCheckTime < UInt64.ofNat (time + 1) := by
      rw [h.time]
      exact lt_next htime
    have hmore : endpoint.p2p.consecutiveCounter + 1 ≠ downThreshold := by
      rw [h.counter, counter_succ]
      exact (counter_eq_iff (by omega)).not.2 (by omega)
    simp only [PeerToPeer.check, if_pos hdue, if_pos (And.intro h.head h.queued), if_neg hmore]
    refine ⟨h.returned, rfl, h.queued, h.rtt, ?_, ?_⟩
    · dsimp only
      rw [h.counter, counter_succ]
    · change UInt64.ofNat (time + 1) + checkTimes * endpoint.p2p.sendQueue.rtt = _
      have hinterval : time + 1 + 100000 = time + checkInterval := by
        unfold checkInterval
        omega
      rw [h.rtt, show checkTimes * defaultRtt = UInt64.ofNat 100000 by decide, ← UInt64.ofNat_add, hinterval]

/-- As many fruitless checks in a row as leave the connection up. -/
theorem Stalled.repeated (hreach : (system N ι).Reachable Unbroken endpoint) (more : ℕ)
    (hchecks : checks + more < 5000) (htime : time + more * checkInterval + 1 < 2 ^ 64) :
    ∃ endpoint', (system N ι).Reachable Unbroken endpoint' ∧
      endpoint'.Stalled (checks + more) (time + more * checkInterval) ∧
      endpoint'.receiver = endpoint.receiver ∧ endpoint'.given = endpoint.given ∧
      endpoint'.collected = endpoint.collected := by
  induction more with
  | zero => exact ⟨endpoint, hreach, by simpa using h, rfl, rfl, rfl⟩
  | succ more ih =>
    rw [Nat.succ_mul] at htime
    obtain ⟨middle, hmiddle, hstalled, hreceiver, hgiven, hcollected⟩ := ih (by omega) (by omega)
    obtain ⟨endpoint', hstep, hstalled', hreceiver', hgiven', hcollected'⟩ :=
      hstalled.check (by omega) (by omega)
    have hup := (hstalled.givesUp (by omega) (by omega)).not.2 (by omega)
    refine ⟨endpoint', .next (.check (UInt64.ofNat (time + more * checkInterval + 1))) hmiddle
      (fun hdown ↦ absurd hdown hup) hstep, ?_, hreceiver'.trans hreceiver, hgiven'.trans hgiven,
      hcollected'.trans hcollected⟩
    rw [Nat.succ_mul, ← Nat.add_assoc, ← Nat.add_assoc]
    exact hstalled'

omit h

/-- A packet with the given number and what is behind its header. -/
def arrivedPacket (seqNum : ℕ) (body : List UInt8) : Packet :=
  Packet.ofBytes 128 (List.replicate magicNumOffset 0 ++ [msgMagicNum, 0] ++ littleEndian 4 seqNum ++ body)

/-- A new connection. -/
def fresh : Endpoint 8 ℕ :=
  ⟨SenderRun.freshSender, SenderRun.freshSender.p2p,
    ⟨1, 1, 0, [], ⟨2, ⟨0, 0, 0, 0, 0⟩, none, [], none, []⟩⟩, false, [], []⟩

theorem init_fresh : (system 8 ℕ).init fresh :=
  ⟨⟨_, _, _, _, _, _, _, _, rfl⟩, _, _, _, _, _, _, _, _, rfl, rfl, rfl, rfl, rfl, rfl, rfl, rfl⟩

/-- The peer sends two packets of flow state, the own end a structure, and the first packet arrives. -/
def firstPacket : List (EndpointInput ℕ) :=
  [.peer (.send true (.batch ⟨5, 6, 7, 8⟩ [Packet.ofBytes 128 [0xA2], Packet.ofBytes 128 []] (by decide)
      (by decide))),
    .send true (.cstruct ⟨1, 2, 3, 4⟩ [7, 8, 9]),
    .recv 1 0 (.sent 0) ⟨0, arrivedPacket 1 (MessageHeader.bytes ⟨5, 6, 7, 8, 2⟩ ++
      PeerToPeer.tagged .binaryFlowState 2 ++ [0xA2])⟩]

instance (endpoint : Endpoint N ι) (input : EndpointInput ι) : Decidable (Unbroken endpoint input) :=
  match input with
  | .recv _ _ _ _ => inferInstanceAs (Decidable (_ < _))
  | .check currentNs =>
    decidable_of_iff (endpoint.p2p.GivesUp currentNs → endpoint.receiver.batch.isEmpty = true)
      (by rw [List.isEmpty_iff]; rfl)
  | .peer _ | .clean | .send _ _ | .getSendBatch _ _ _ | .getAckPkt _ => isTrue trivial

theorem received_packets_owned_two : ∃ endpoint : Endpoint 8 ℕ,
    (system 8 ℕ).run fresh (firstPacket ++ [.recv 1 0 (.sent 1) ⟨1, arrivedPacket 2 []⟩, .clean,
      .check 200000]) = some endpoint ∧ endpoint.collected = [0, 1] ∧ endpoint.Owned := by
  obtain ⟨endpoint, hsteps, hcollected⟩ :
      ∃ endpoint ∈ (system 8 ℕ).runChecked (fun endpoint input ↦ decide (Unbroken endpoint input)) fresh
        (firstPacket ++ [.recv 1 0 (.sent 1) ⟨1, arrivedPacket 2 []⟩, .clean, .check 200000]),
        endpoint.collected = [0, 1] := by decide +kernel
  exact ⟨endpoint, TransitionSystem.run_of_runChecked hsteps, hcollected,
    (received_packets_owned ⟨⟨3, rfl⟩, by decide⟩ (.replayDecided init_fresh hsteps)).1⟩

theorem stalled_firstPacket : ∃ endpoint : Endpoint 8 ℕ, (system 8 ℕ).Reachable Unbroken endpoint ∧
    endpoint.Stalled 0 100000 ∧ endpoint.given = [0] ∧ endpoint.collected = [] ∧
    endpoint.receiver.curMsg.garbage = [] := by
  obtain ⟨endpoint, hsteps, hgiven, hcollected, hgarbage, hreturned, hhead, hqueued, hrtt, hcounter, htime⟩ :
      ∃ endpoint ∈ (system 8 ℕ).runChecked (fun endpoint input ↦ decide (Unbroken endpoint input)) fresh
        firstPacket, endpoint.given = [0] ∧ endpoint.collected = [] ∧
        endpoint.receiver.curMsg.garbage.length = 0 ∧ endpoint.returned = false ∧
        endpoint.p2p.lastCheckHeadSeqNum = endpoint.p2p.sendQueue.headSeqNum.toUInt64 ∧
        0 < endpoint.p2p.sendQueue.curSize ∧ endpoint.p2p.sendQueue.rtt = defaultRtt ∧
        endpoint.p2p.consecutiveCounter = UInt64.ofNat 0 ∧
        endpoint.p2p.nextCheckTime = UInt64.ofNat 100000 := by decide +kernel
  exact ⟨endpoint, .replayDecided init_fresh hsteps, ⟨hreturned, hhead, hqueued, hrtt, hcounter, htime⟩, hgiven,
    hcollected, List.eq_nil_of_length_eq_zero hgarbage⟩

/-- After five thousand fruitless checks the first packet of the message is nowhere. -/
theorem begun_message_lost : ∃ endpoint : Endpoint 8 ℕ,
    (system 8 ℕ).Reachable TransitionSystem.anyStep endpoint ∧ endpoint.given = [0] ∧
      endpoint.collected = [] ∧ endpoint.receiver.batch = [] ∧ endpoint.receiver.curMsg.garbage = [] ∧
      ¬endpoint.Owned := by
  obtain ⟨begun, hbegun, hstalled, hgiven, hcollected, hgarbage⟩ := stalled_firstPacket
  obtain ⟨last, hlast, hstalled', hreceiver, hgiven', hcollected'⟩ :=
    hstalled.repeated hbegun 4999 (by norm_num) (by norm_num [checkInterval])
  have hdown := (hstalled'.givesUp (by norm_num [checkInterval]) (by norm_num)).2 (by norm_num)
  have hnone : last.collected ++ last.receiver.bringDown.1 = [] := by
    rw [hcollected', hcollected, hreceiver, Receiver.bringDown, HeldMsg.clean, hgarbage]
    rfl
  refine ⟨{ last with
    p2p := (last.p2p.check (UInt64.ofNat (100000 + 4999 * checkInterval + 1))).2
    receiver := last.receiver.bringDown.2
    collected := last.collected ++ last.receiver.bringDown.1 }, ?_, hgiven'.trans hgiven, hnone, rfl, rfl, ?_⟩
  · refine .next (.check (UInt64.ofNat (100000 + 4999 * checkInterval + 1)))
      (hlast.weaken fun _ _ _ ↦ trivial) trivial ?_
    exact (if_neg (by rw [hstalled'.returned]; exact Bool.false_ne_true)).trans (if_pos hdown)
  · intro howned
    have hlength := howned.places.length_eq
    dsimp only at hlength
    rw [hnone, hgiven', hgiven] at hlength
    cases hlength

end Endpoint

end

end NfvActor.Reliable
