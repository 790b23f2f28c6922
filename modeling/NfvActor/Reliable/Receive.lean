import Mathlib.Tactic
import NfvActor.Foundation.Transition
import NfvActor.Reliable.PeerToPeer

/-!
# Who holds a received packet

The receiving half of `reliable_p2p` on packets of any bytes and length, each with its identity, so that it can
be followed to the collector. The counts in the packets are trusted: with counts that add up every packet ends
in one place, with others it does not.
-/

namespace NfvActor.Reliable

open NfvActor.Foundation
open Option (bind_eq_some_iff map_eq_some_iff)

/-- A packet object: where it is, and what it holds. -/
structure Held (ι : Type) where
  handle : ι
  pkt : Packet

/-- `reliable_single_msg`, with the identities of its packets. -/
structure HeldMsg (ι : Type) where
  sendRuntimeId : ℤ
  rmh : MessageHeader
  cstructPkt : Option (Held ι)
  fsMsgBatch : List (Held ι)
  rawPkt : Option (Held ι)
  garbage : List (Held ι)

section

variable {ι : Type}

namespace Held

/-- `adj` on a packet object. -/
def adj (held : Held ι) (len : ℕ) : Held ι := { held with pkt := held.pkt.adj len }

/-- The identities of a run of packets. -/
def handles (batch : List (Held ι)) : List ι := batch.map handle

@[simp]
theorem handles_nil : handles ([] : List (Held ι)) = [] := rfl

@[simp]
theorem handles_cons (held : Held ι) (batch : List (Held ι)) :
    handles (held :: batch) = held.handle :: handles batch := rfl

@[simp]
theorem handles_append (first second : List (Held ι)) :
    handles (first ++ second) = handles first ++ handles second := List.map_append

@[simp]
theorem handle_adj (held : Held ι) (len : ℕ) : (held.adj len).handle = held.handle := rfl

end Held

namespace HeldMsg

/-- `clean`: what goes to the collector, and the message afterwards. -/
def clean (msg : HeldMsg ι) : List ι × HeldMsg ι :=
  (Held.handles msg.garbage, { msg with fsMsgBatch := [], garbage := [] })

/-- The inner loop of a flow-state sub-message. -/
def addFlowState (msg : HeldMsg ι) : ℕ → List (Held ι) → Option (HeldMsg ι)
  | 0, _ => some msg
  | _ + 1, [] => none
  | num + 1, held :: rest => do
    let fsMsgBatch ← batchAdd msg.fsMsgBatch held
    let garbage ← batchAdd msg.garbage held
    addFlowState { msg with fsMsgBatch, garbage } num rest

/-- `case packet`. -/
def addRawPacket (msg : HeldMsg ι) (num : ℕ) (held : Held ι) (rest : List (Held ι)) :
    Option (Held ι × HeldMsg ι) :=
  if num = 2 then
    match rest with
    | [] => none
    | supplement :: _ => do
      let whole ← held.pkt.append supplement.pkt.data
      let garbage ← batchAdd msg.garbage supplement
      some ({ held with pkt := whole }, { msg with rawPkt := some { held with pkt := whole }, garbage })
  else
    some (held, { msg with rawPkt := some held })

/-- `format`, on the part of the batch from position `i` on. -/
def format (msg : HeldMsg ι) : ℕ → List (Held ι) → Option (Bool × HeldMsg ι)
  | _, [] => some (true, msg)
  | 0, _ :: _ => none
  | fuel + 1, held :: rest =>
    match SubMessage.ofPacket held.pkt with
    | some .cstruct => do
      let cstructPkt := held.adj SubMessage.tagSize
      let garbage ← batchAdd msg.garbage cstructPkt
      format { msg with cstructPkt := some cstructPkt, garbage } fuel rest
    | some .binaryFlowState => do
      let num := held.pkt.read SubMessage.tagSize 1
      let batch := held.adj (SubMessage.tagSize + 1) :: rest
      let msg ← addFlowState msg num batch
      format msg fuel (batch.drop num)
    | some .packet => do
      let num := held.pkt.read SubMessage.tagSize 1
      let (held, msg) ← addRawPacket msg num (held.adj (SubMessage.tagSize + 1)) rest
      format msg fuel ((held :: rest).drop num)
    | none => some (false, { msg with garbage := [] })

end HeldMsg

/-- The counts from position `i` on. Up to the first unknown tag flow-state sub-messages have as many packets as
they say, and at most one packet sub-message comes, of one packet or of two that fit into one; `raw` says that
it came. -/
inductive WellCounted : Bool → List (Held ι) → Prop
  | done {raw : Bool} : WellCounted raw []
  | unknown {raw : Bool} {held : Held ι} {rest : List (Held ι)}
      (htag : SubMessage.ofPacket held.pkt = none) : WellCounted raw (held :: rest)
  | cstruct {raw : Bool} {held : Held ι} {rest : List (Held ι)}
      (htag : SubMessage.ofPacket held.pkt = some .cstruct) (hrest : WellCounted raw rest) :
      WellCounted raw (held :: rest)
  | noFlowState {raw : Bool} {held : Held ι} {rest : List (Held ι)}
      (htag : SubMessage.ofPacket held.pkt = some .binaryFlowState)
      (hnum : held.pkt.read SubMessage.tagSize 1 = 0)
      (hrest : WellCounted raw (held.adj (SubMessage.tagSize + 1) :: rest)) : WellCounted raw (held :: rest)
  | flowState {raw : Bool} {held : Held ι} {others rest : List (Held ι)}
      (htag : SubMessage.ofPacket held.pkt = some .binaryFlowState)
      (hnum : held.pkt.read SubMessage.tagSize 1 = others.length + 1) (hrest : WellCounted raw rest) :
      WellCounted raw (held :: (others ++ rest))
  | packet {held : Held ι} {rest : List (Held ι)} (htag : SubMessage.ofPacket held.pkt = some .packet)
      (hnum : held.pkt.read SubMessage.tagSize 1 = 1) (hrest : WellCounted true rest) :
      WellCounted false (held :: rest)
  | cutPacket {held supplement : Held ι} {rest : List (Held ι)}
      (htag : SubMessage.ofPacket held.pkt = some .packet) (hnum : held.pkt.read SubMessage.tagSize 1 = 2)
      (hfits : (held.pkt.adj (SubMessage.tagSize + 1)).dataLen + supplement.pkt.data.length ≤
        (held.pkt.adj (SubMessage.tagSize + 1)).bytes.length)
      (hrest : WellCounted true rest) : WellCounted false (held :: supplement :: rest)

namespace HeldMsg

/-- The packets of a batch are the new garbage, but for one that may be the raw packet. A rejected batch leaves
no garbage. -/
structure Formatted (raw : Bool) (msg : HeldMsg ι) (batch : List (Held ι)) (flag : Bool) (msg' : HeldMsg ι) :
    Prop where
  rejected : flag = false → msg'.garbage = []
  accepted : flag = true → ∃ kept : List ι, kept.length ≤ 1 ∧
    (raw = true → kept = [] ∧ msg'.rawPkt = msg.rawPkt) ∧
    (∀ handle ∈ kept, msg'.rawPkt.map Held.handle = some handle) ∧
    (Held.handles msg'.garbage ++ kept).Perm (Held.handles msg.garbage ++ Held.handles batch)

theorem batchAdd_of_room {α : Type} {batch : List α} (pkt : α) (h : batch.length + 1 ≤ kMaxBurst) :
    batchAdd batch pkt = some (batch ++ [pkt]) := if_pos h

theorem addFlowState_eq (batch behind : List (Held ι)) (msg : HeldMsg ι)
    (hfs : msg.fsMsgBatch.length + batch.length ≤ kMaxBurst)
    (hgarbage : msg.garbage.length + batch.length ≤ kMaxBurst) :
    msg.addFlowState batch.length (batch ++ behind) = some { msg with
      fsMsgBatch := msg.fsMsgBatch ++ batch
      garbage := msg.garbage ++ batch } := by
  induction batch generalizing msg with
  | nil => simp [addFlowState]
  | cons held rest ih =>
    rw [List.length_cons] at hfs hgarbage
    rw [List.length_cons, List.cons_append, addFlowState, batchAdd_of_room held (by omega),
      batchAdd_of_room held (by omega)]
    change addFlowState { msg with
      fsMsgBatch := msg.fsMsgBatch ++ [held]
      garbage := msg.garbage ++ [held] } rest.length (rest ++ behind) = _
    rw [ih _ (by rw [List.length_append, List.length_singleton]; omega)
      (by rw [List.length_append, List.length_singleton]; omega)]
    simp only [List.append_assoc, List.singleton_append]

variable {msg : HeldMsg ι} {batch : List (Held ι)} {result : Bool × HeldMsg ι}

theorem Formatted.of_garbage {raw flag : Bool} {msg' : HeldMsg ι} (moved : List (Held ι))
    {rest : List (Held ι)} {cstructPkt : Option (Held ι)} {fsMsgBatch garbage : List (Held ι)}
    (h : Formatted raw { msg with cstructPkt, fsMsgBatch, garbage } rest flag msg')
    (hgarbage : Held.handles garbage = Held.handles msg.garbage ++ Held.handles moved) :
    Formatted raw msg (moved ++ rest) flag msg' where
  rejected := h.rejected
  accepted := by
    intro hflag
    obtain ⟨kept, hlength, hraw, hkept, hperm⟩ := h.accepted hflag
    refine ⟨kept, hlength, hraw, hkept, ?_⟩
    rw [hgarbage, List.append_assoc] at hperm
    rwa [Held.handles_append]

/-- A packet sub-message, in front of a batch without another one. -/
theorem Formatted.of_raw {flag : Bool} {msg' : HeldMsg ι} {whole : Held ι} (held : Held ι)
    (moved : List (Held ι)) {rest : List (Held ι)}
    (h : Formatted true { msg with rawPkt := some whole, garbage := msg.garbage ++ moved } rest flag msg')
    (hhandle : whole.handle = held.handle) : Formatted false msg (held :: (moved ++ rest)) flag msg' where
  rejected := h.rejected
  accepted := by
    intro hflag
    obtain ⟨kept, -, hraw, -, hperm⟩ := h.accepted hflag
    obtain ⟨rfl, hsame⟩ := hraw rfl
    refine ⟨[held.handle], le_rfl, fun h ↦ absurd h Bool.false_ne_true, ?_, ?_⟩
    · intro handle hmem
      rw [List.mem_singleton.1 hmem, hsame, ← hhandle]
      rfl
    · rw [List.append_nil, Held.handles_append, List.append_assoc] at hperm
      rw [Held.handles_cons, Held.handles_append]
      have hmoved := (hperm.append_right [held.handle]).trans (List.perm_append_singleton _ _)
      exact hmoved.trans List.perm_middle.symm

/-- A batch whose counts add up is formatted after some rounds, and accounted for. -/
theorem format_of_wellCounted {raw : Bool} (hcounted : WellCounted raw batch) (msg : HeldMsg ι)
    (hfs : msg.fsMsgBatch.length + batch.length ≤ kMaxBurst)
    (hgarbage : msg.garbage.length + batch.length ≤ kMaxBurst) :
    ∃ rounds flag msg', (∀ fuel ≥ rounds, msg.format fuel batch = some (flag, msg')) ∧
      Formatted raw msg batch flag msg' := by
  induction hcounted generalizing msg with
  | done =>
    refine ⟨0, true, msg, fun fuel _ ↦ by rw [format], fun h ↦ absurd h.symm Bool.false_ne_true, fun _ ↦ ?_⟩
    exact ⟨[], by simp, fun _ ↦ ⟨rfl, rfl⟩, by simp, .refl _⟩
  | @unknown _ _ _ htag =>
    refine ⟨1, false, { msg with garbage := [] }, fun fuel hfuel ↦ ?_, fun _ ↦ rfl,
      fun h ↦ absurd h Bool.false_ne_true⟩
    obtain ⟨rounds, rfl⟩ := Nat.exists_eq_add_of_le' hfuel
    rw [format, htag]
  | @cstruct _ held _ htag _ ih =>
    rw [List.length_cons] at hfs hgarbage
    obtain ⟨rounds, flag, msg', hformat, hformatted⟩ := ih { msg with
      cstructPkt := some (held.adj SubMessage.tagSize)
      garbage := msg.garbage ++ [held.adj SubMessage.tagSize] } (by dsimp only; omega)
      (by rw [List.length_append, List.length_singleton]; omega)
    refine ⟨rounds + 1, flag, msg', fun fuel hfuel ↦ ?_, hformatted.of_garbage [held] (by simp)⟩
    obtain ⟨more, rfl⟩ := Nat.exists_eq_add_of_le' hfuel
    rw [← Nat.add_assoc, format, htag]
    dsimp only
    rw [batchAdd_of_room _ (by omega)]
    exact hformat (more + rounds) (by omega)
  | @noFlowState _ _ _ htag hnum _ ih =>
    obtain ⟨rounds, flag, msg', hformat, hformatted⟩ := ih msg hfs hgarbage
    refine ⟨rounds + 1, flag, msg', fun fuel hfuel ↦ ?_, hformatted.rejected, hformatted.accepted⟩
    obtain ⟨more, rfl⟩ := Nat.exists_eq_add_of_le' hfuel
    rw [← Nat.add_assoc, format, htag]
    dsimp only
    rw [hnum]
    exact hformat (more + rounds) (by omega)
  | @flowState _ held others rest htag hnum _ ih =>
    rw [List.length_cons, List.length_append] at hfs hgarbage
    obtain ⟨rounds, flag, msg', hformat, hformatted⟩ := ih { msg with
      fsMsgBatch := msg.fsMsgBatch ++ held.adj (SubMessage.tagSize + 1) :: others
      garbage := msg.garbage ++ held.adj (SubMessage.tagSize + 1) :: others }
      (by rw [List.length_append, List.length_cons]; omega)
      (by rw [List.length_append, List.length_cons]; omega)
    refine ⟨rounds + 1, flag, msg', fun fuel hfuel ↦ ?_, hformatted.of_garbage (held :: others) (by simp)⟩
    obtain ⟨more, rfl⟩ := Nat.exists_eq_add_of_le' hfuel
    have hadd := addFlowState_eq (held.adj (SubMessage.tagSize + 1) :: others) rest msg
      (by rw [List.length_cons]; omega) (by rw [List.length_cons]; omega)
    rw [List.length_cons, List.cons_append] at hadd
    rw [← Nat.add_assoc, format, htag]
    dsimp only
    rw [hnum, hadd, List.drop_succ_cons, List.drop_left]
    exact hformat (more + rounds) (by omega)
  | @packet held _ htag hnum _ ih =>
    rw [List.length_cons] at hfs hgarbage
    obtain ⟨rounds, flag, msg', hformat, hformatted⟩ := ih { msg with
      rawPkt := some (held.adj (SubMessage.tagSize + 1))
      garbage := msg.garbage ++ [] } (by dsimp only; omega) (by simp only [List.append_nil]; omega)
    refine ⟨rounds + 1, flag, msg', fun fuel hfuel ↦ ?_, hformatted.of_raw held [] rfl⟩
    obtain ⟨more, rfl⟩ := Nat.exists_eq_add_of_le' hfuel
    rw [List.append_nil] at hformat
    rw [← Nat.add_assoc, format, htag]
    dsimp only
    rw [hnum]
    exact hformat (more + rounds) (by omega)
  | @cutPacket held supplement rest htag hnum hfits _ ih =>
    rw [List.length_cons, List.length_cons] at hfs hgarbage
    obtain ⟨whole, hwhole⟩ : ∃ whole,
        (held.pkt.adj (SubMessage.tagSize + 1)).append supplement.pkt.data = some whole := by
      rw [Packet.append, dif_neg (not_lt.2 hfits)]
      exact ⟨_, rfl⟩
    obtain ⟨rounds, flag, msg', hformat, hformatted⟩ := ih { msg with
      rawPkt := some ⟨held.handle, whole⟩
      garbage := msg.garbage ++ [supplement] } (by dsimp only; omega)
      (by rw [List.length_append, List.length_singleton]; omega)
    refine ⟨rounds + 1, flag, msg', fun fuel hfuel ↦ ?_, hformatted.of_raw held [supplement] rfl⟩
    obtain ⟨more, rfl⟩ := Nat.exists_eq_add_of_le' hfuel
    have hadd : msg.addRawPacket 2 (held.adj (SubMessage.tagSize + 1)) (supplement :: rest) =
        some (⟨held.handle, whole⟩, { msg with
          rawPkt := some ⟨held.handle, whole⟩
          garbage := msg.garbage ++ [supplement] }) := by
      rw [addRawPacket, if_pos rfl]
      simp only [Held.adj, hwhole, Option.bind_eq_bind, Option.bind_some,
        batchAdd_of_room supplement (show msg.garbage.length + 1 ≤ kMaxBurst by omega)]
    rw [← Nat.add_assoc, format, htag]
    dsimp only
    rw [hnum, hadd]
    exact hformat (more + rounds) (by omega)

/-- More rounds make no difference to a batch that is done. -/
theorem format_succ {fuel : ℕ} (h : msg.format fuel batch = some result) :
    msg.format (fuel + 1) batch = some result := by
  induction fuel generalizing msg batch with
  | zero =>
    cases batch with
    | nil => exact h
    | cons => cases h
  | succ _ ih =>
    cases batch with
    | nil => exact h
    | cons held =>
      rw [format] at h ⊢
      generalize SubMessage.ofPacket held.pkt = kind at h ⊢
      rcases kind with _ | _ | _ | _
      · exact h
      · obtain ⟨garbage, hadd, hrest⟩ := bind_eq_some_iff.1 h
        exact bind_eq_some_iff.2 ⟨garbage, hadd, ih hrest⟩
      · obtain ⟨added, hadd, hrest⟩ := bind_eq_some_iff.1 h
        exact bind_eq_some_iff.2 ⟨added, hadd, ih hrest⟩
      · obtain ⟨added, hadd, hrest⟩ := bind_eq_some_iff.1 h
        exact bind_eq_some_iff.2 ⟨added, hadd, ih hrest⟩

theorem format_of_le {fuel more : ℕ} (hle : fuel ≤ more) (h : msg.format fuel batch = some result) :
    msg.format more batch = some result := by
  induction hle with
  | refl => exact h
  | step _ ih => exact format_succ ih

end HeldMsg

/-- The receiving half of a `reliable_p2p`. -/
structure Receiver (ι : Type) where
  nextSeqNumToRecv : UInt32
  nextSeqNumToRecvSnapshot : UInt32
  errorCounter : UInt64
  batch : List (Held ι)
  curMsg : HeldMsg ι

/-- What `recv` returns, and what it gives to the collector. -/
structure Reception (ι : Type) where
  message : Option (HeldMsg ι)
  collected : List ι
  receiver : Receiver ι

/-- `sizeof(reliable_header)`, and the places of magic number and sequence number. -/
def reliableHeaderSize : ℕ := 40

@[inherit_doc reliableHeaderSize]
def magicNumOffset : ℕ := 34

@[inherit_doc reliableHeaderSize]
def seqNumOffset : ℕ := 36

/-- The `reliable_message_header` behind the `reliable_header`, whatever the packet's length. -/
def MessageHeader.behindHeader (pkt : Packet) : MessageHeader :=
  ofPacket (Packet.ofBytes 0 (pkt.bytes.drop reliableHeaderSize))

namespace Receiver

/-- A packet out of sequence. -/
def recvOutOfSequence (receiver : Receiver ι) : Receiver ι :=
  if 16 < receiver.errorCounter + 1 then
    { receiver with
      errorCounter := 0
      nextSeqNumToRecvSnapshot := receiver.nextSeqNumToRecv - 1 }
  else
    { receiver with errorCounter := receiver.errorCounter + 1 }

/-- An accepted packet joins the batch; the first one sets the message header. -/
def recvInSequence (receiver : Receiver ι) (held : Held ι) : Option (Receiver ι) := do
  let accepted := { receiver with
    errorCounter := 0
    nextSeqNumToRecv := receiver.nextSeqNumToRecv + 1 }
  if receiver.batch.isEmpty then
    let batch ← batchAdd receiver.batch (held.adj (reliableHeaderSize + MessageHeader.size))
    some { accepted with
      curMsg := { receiver.curMsg with rmh := MessageHeader.behindHeader held.pkt }
      batch }
  else
    let batch ← batchAdd receiver.batch (held.adj reliableHeaderSize)
    some { accepted with batch }

/-- A complete batch is formatted; one that cannot be is collected. -/
def deliver (receiver : Receiver ι) (fuel : ℕ) : Option (Reception ι) :=
  if receiver.batch.length = receiver.curMsg.rmh.msgPktNum.toNat then do
    let (flag, msg) ← receiver.curMsg.format fuel receiver.batch
    if flag then
      some ⟨some msg, [], { receiver with batch := [], curMsg := msg }⟩
    else
      some ⟨none, Held.handles receiver.batch ++ msg.clean.1,
        { receiver with batch := [], curMsg := msg.clean.2 }⟩
  else
    some ⟨none, [], receiver⟩

/-- `recv`; of an acknowledgement only that the packet is collected. -/
def recv (receiver : Receiver ι) (fuel : ℕ) (held : Held ι) : Option (Reception ι) :=
  if UInt8.ofNat (held.pkt.read magicNumOffset 1) = ackMagicNum then
    some ⟨none, [held.handle], receiver⟩
  else if UInt32.ofNat (held.pkt.read seqNumOffset 4) ≠ receiver.nextSeqNumToRecv then
    some ⟨none, [held.handle], receiver.recvOutOfSequence⟩
  else do
    let accepted ← receiver.recvInSequence held
    accepted.deliver fuel

/-- `clean` on the message that `recv` has returned. -/
def cleanMsg (receiver : Receiver ι) : List ι × Receiver ι :=
  (receiver.curMsg.clean.1, { receiver with curMsg := receiver.curMsg.clean.2 })

end Receiver

/-! ## Runs of a receiver -/

/-- A receiver with records of the packets given, of those collected, and of the messages returned. -/
structure Intake (ι : Type) where
  receiver : Receiver ι
  given : List ι
  collected : List ι
  returned : List (HeldMsg ι)

namespace Receiver

/-- The packet is a data packet with the expected number. -/
def Expects (receiver : Receiver ι) (held : Held ι) : Prop :=
  UInt8.ofNat (held.pkt.read magicNumOffset 1) ≠ ackMagicNum ∧
    UInt32.ofNat (held.pkt.read seqNumOffset 4) = receiver.nextSeqNumToRecv

/-- The header of the message that the packet belongs to. -/
def header (receiver : Receiver ι) (held : Held ι) : MessageHeader :=
  if receiver.batch.isEmpty then MessageHeader.behindHeader held.pkt else receiver.curMsg.rmh

/-- The batch with the packet. -/
def joined (receiver : Receiver ι) (held : Held ι) : List (Held ι) :=
  receiver.batch ++
    [held.adj (if receiver.batch.isEmpty then reliableHeaderSize + MessageHeader.size else reliableHeaderSize)]

/-- The message of an expected packet has at least one packet and at most a batch, and when complete its counts
add up, with no packet sub-message if `raw` is set. -/
def CountsAddUp (receiver : Receiver ι) (raw : Bool) (held : Held ι) : Prop :=
  receiver.Expects held → 1 ≤ (receiver.header held).msgPktNum.toNat ∧
    (receiver.header held).msgPktNum.toNat ≤ kMaxBurst ∧
    ((receiver.joined held).length = (receiver.header held).msgPktNum.toNat →
      WellCounted raw (receiver.joined held))

variable {receiver : Receiver ι} {reception : Reception ι} {held : Held ι}

theorem deliver_of_le {fuel more : ℕ} (hle : fuel ≤ more) (h : receiver.deliver fuel = some reception) :
    receiver.deliver more = some reception := by
  unfold deliver at h ⊢
  split at h
  next hcomplete =>
    rw [if_pos hcomplete]
    obtain ⟨result, hformat, hrest⟩ := bind_eq_some_iff.1 h
    exact bind_eq_some_iff.2 ⟨result, HeldMsg.format_of_le hle hformat, hrest⟩
  next hcomplete =>
    rw [if_neg hcomplete]
    exact h

/-- Neither do they to a call of `recv` that returns. -/
theorem recv_of_le {fuel more : ℕ} (hle : fuel ≤ more) (h : receiver.recv fuel held = some reception) :
    receiver.recv more held = some reception := by
  unfold recv at h ⊢
  split at h
  next hack =>
    rw [if_pos hack]
    exact h
  next hack =>
    rw [if_neg hack]
    split at h
    next hseq =>
      rw [if_pos hseq]
      exact h
    next hseq =>
      rw [if_neg hseq]
      obtain ⟨accepted, haccept, hdeliver⟩ := bind_eq_some_iff.1 h
      exact bind_eq_some_iff.2 ⟨accepted, haccept, deliver_of_le hle hdeliver⟩

/-- Between two calls: the message is clean, and no complete batch is left. -/
structure Settled (receiver : Receiver ι) : Prop where
  fsMsgBatch : receiver.curMsg.fsMsgBatch = []
  garbage : receiver.curMsg.garbage = []
  unfinished : receiver.batch = [] ∨ receiver.batch.length < receiver.curMsg.rmh.msgPktNum.toNat ∧
    receiver.curMsg.rmh.msgPktNum.toNat ≤ kMaxBurst

theorem Settled.length_lt (h : receiver.Settled) : receiver.batch.length < kMaxBurst := by
  rcases h.unfinished with hempty | ⟨hless, hburst⟩
  · rw [hempty]
    exact (show 0 < kMaxBurst by decide)
  · omega

theorem Settled.recvInSequence (h : receiver.Settled) (held : Held ι) :
    ∃ accepted : Receiver ι, receiver.recvInSequence held = some accepted ∧
      accepted.batch = receiver.joined held ∧
      accepted.curMsg = { receiver.curMsg with rmh := receiver.header held } := by
  have hroom := h.length_lt
  rw [Receiver.recvInSequence, joined, header]
  cases hempty : receiver.batch.isEmpty with
  | true =>
    rw [if_pos rfl, if_pos rfl, if_pos rfl, HeldMsg.batchAdd_of_room _ hroom]
    exact ⟨_, rfl, rfl, rfl⟩
  | false =>
    rw [if_neg Bool.false_ne_true, if_neg Bool.false_ne_true, if_neg Bool.false_ne_true,
      HeldMsg.batchAdd_of_room _ hroom]
    exact ⟨_, rfl, rfl, rfl⟩

/-- What becomes of the packets of a receiver that is given another one. -/
structure Delivered (raw : Bool) (owned : List ι) (reception : Reception ι) : Prop where
  settled : reception.receiver.cleanMsg.2.Settled
  refused : reception.message = none →
    (reception.collected ++ Held.handles reception.receiver.batch).Perm owned ∧
      reception.receiver.Settled
  returned : ∀ msg, reception.message = some msg → reception.collected = [] ∧
    reception.receiver.batch = [] ∧ reception.receiver.curMsg = msg ∧
    ∃ kept : List ι, kept.length ≤ 1 ∧ (raw = true → kept = []) ∧
      (∀ handle ∈ kept, msg.rawPkt.map Held.handle = some handle) ∧
      (Held.handles msg.garbage ++ kept).Perm owned

theorem deliver_of_countsAddUp {raw : Bool} {accepted : Receiver ι} (hfs : accepted.curMsg.fsMsgBatch = [])
    (hgarbage : accepted.curMsg.garbage = [])
    (hburst : accepted.batch.length ≤ accepted.curMsg.rmh.msgPktNum.toNat)
    (hnum : accepted.curMsg.rmh.msgPktNum.toNat ≤ kMaxBurst)
    (hcounted : accepted.batch.length = accepted.curMsg.rmh.msgPktNum.toNat → WellCounted raw accepted.batch) :
    ∃ rounds reception, (∀ fuel ≥ rounds, accepted.deliver fuel = some reception) ∧
      Delivered raw (Held.handles accepted.batch) reception := by
  by_cases hcomplete : accepted.batch.length = accepted.curMsg.rmh.msgPktNum.toNat
  · obtain ⟨rounds, flag, msg, hformat, hformatted⟩ := HeldMsg.format_of_wellCounted (hcounted hcomplete)
      accepted.curMsg (by rw [hfs, List.length_nil]; omega) (by rw [hgarbage, List.length_nil]; omega)
    cases flag with
    | true =>
      obtain ⟨kept, hlength, hraw, hkept, hperm⟩ := hformatted.accepted rfl
      rw [hgarbage] at hperm
      refine ⟨rounds, ⟨some msg, [], { accepted with batch := [], curMsg := msg }⟩, fun fuel hfuel ↦ ?_,
        ⟨rfl, rfl, .inl rfl⟩, fun h ↦ absurd h (by simp), ?_⟩
      · rw [deliver, if_pos hcomplete, hformat fuel hfuel]
        rfl
      · intro msg' hmsg
        cases hmsg
        exact ⟨rfl, rfl, rfl, kept, hlength, fun h ↦ (hraw h).1, hkept, hperm⟩
    | false =>
      have hempty := hformatted.rejected rfl
      refine ⟨rounds, ⟨none, Held.handles accepted.batch ++ msg.clean.1,
        { accepted with batch := [], curMsg := msg.clean.2 }⟩, fun fuel hfuel ↦ ?_,
        ⟨rfl, rfl, .inl rfl⟩, fun _ ↦ ⟨?_, rfl, rfl, .inl rfl⟩, fun msg' h ↦ absurd h (by simp)⟩
      · rw [deliver, if_pos hcomplete, hformat fuel hfuel]
        rfl
      · simp [HeldMsg.clean, hempty]
  · have hless := lt_of_le_of_ne hburst hcomplete
    refine ⟨0, ⟨none, [], accepted⟩, fun fuel _ ↦ ?_, ⟨rfl, rfl, .inr ⟨hless, hnum⟩⟩,
      fun _ ↦ ⟨.refl _, hfs, hgarbage, .inr ⟨hless, hnum⟩⟩, fun msg h ↦ absurd h (by simp)⟩
    rw [deliver, if_neg hcomplete]

/-- A packet never makes a message longer than it says. -/
theorem Settled.length_joined (h : receiver.Settled) (hone : 1 ≤ (receiver.header held).msgPktNum.toNat) :
    (receiver.joined held).length ≤ (receiver.header held).msgPktNum.toNat := by
  rw [joined, List.length_append, List.length_singleton]
  cases hempty : receiver.batch.isEmpty with
  | true =>
    rw [List.isEmpty_iff.1 hempty]
    exact hone
  | false =>
    rw [header, hempty, if_neg Bool.false_ne_true]
    rcases h.unfinished with hnil | ⟨hless, -⟩
    · rw [hnil] at hempty
      cases hempty
    · exact hless

theorem Settled.cleanMsg (h : receiver.Settled) : receiver.cleanMsg.2.Settled := ⟨rfl, rfl, h.unfinished⟩

theorem batch_recvOutOfSequence (receiver : Receiver ι) :
    receiver.recvOutOfSequence.batch = receiver.batch := by
  unfold Receiver.recvOutOfSequence
  split <;> rfl

theorem Settled.recvOutOfSequence (h : receiver.Settled) : receiver.recvOutOfSequence.Settled := by
  unfold Receiver.recvOutOfSequence
  split <;> exact ⟨h.fsMsgBatch, h.garbage, h.unfinished⟩

theorem handles_joined (receiver : Receiver ι) (held : Held ι) :
    Held.handles (receiver.joined held) = Held.handles receiver.batch ++ [held.handle] := by
  rw [joined, Held.handles_append]
  rfl

/-- `recv` returns if the counts add up, and accounts for the packets. -/
theorem Settled.recv {raw : Bool} (h : receiver.Settled) (hcounts : receiver.CountsAddUp raw held) :
    ∃ rounds reception, (∀ fuel ≥ rounds, receiver.recv fuel held = some reception) ∧
      Delivered raw (Held.handles receiver.batch ++ [held.handle]) reception := by
  by_cases hack : UInt8.ofNat (held.pkt.read magicNumOffset 1) = ackMagicNum
  · refine ⟨0, ⟨none, [held.handle], receiver⟩, fun fuel _ ↦ ?_, h.cleanMsg,
      fun _ ↦ ⟨List.perm_append_comm, h⟩, fun msg hmsg ↦ absurd hmsg (by simp)⟩
    rw [Receiver.recv, if_pos hack]
  by_cases hseq : UInt32.ofNat (held.pkt.read seqNumOffset 4) = receiver.nextSeqNumToRecv
  · obtain ⟨hone, hburst, hcounted⟩ := hcounts ⟨hack, hseq⟩
    obtain ⟨accepted, haccept, hbatch, hmsg⟩ := h.recvInSequence held
    have hlength := h.length_joined hone
    obtain ⟨rounds, reception, hdeliver, hdelivered⟩ := @deliver_of_countsAddUp _ raw accepted
      (by rw [hmsg]; exact h.fsMsgBatch) (by rw [hmsg]; exact h.garbage) (by rw [hbatch, hmsg]; exact hlength)
      (by rw [hmsg]; exact hburst) (by rw [hbatch, hmsg]; exact hcounted)
    rw [hbatch, handles_joined] at hdelivered
    refine ⟨rounds, reception, fun fuel hfuel ↦ ?_, hdelivered⟩
    rw [Receiver.recv, if_neg hack, if_neg (not_not.2 hseq), haccept]
    exact hdeliver fuel hfuel
  · refine ⟨0, ⟨none, [held.handle], receiver.recvOutOfSequence⟩, fun fuel _ ↦ ?_, ?_, fun _ ↦ ⟨?_, ?_⟩,
      fun msg hmsg ↦ absurd hmsg (by simp)⟩
    · rw [Receiver.recv, if_neg hack, if_pos hseq]
    · exact (h.recvOutOfSequence).cleanMsg
    · rw [receiver.batch_recvOutOfSequence]
      exact List.perm_append_comm
    · exact h.recvOutOfSequence

end Receiver

namespace Intake

open Receiver

/-- `recv`, and `clean` on the message that it returns. -/
def step (intake : Intake ι) (input : ℕ × Held ι) : Option (Intake ι) :=
  (intake.receiver.recv input.1 input.2).map fun reception ↦
    match reception.message with
    | none =>
      { receiver := reception.receiver
        given := intake.given ++ [input.2.handle]
        collected := intake.collected ++ reception.collected
        returned := intake.returned }
    | some msg =>
      { receiver := reception.receiver.cleanMsg.2
        given := intake.given ++ [input.2.handle]
        collected := intake.collected ++ reception.collected ++ reception.receiver.cleanMsg.1
        returned := intake.returned ++ [msg] }

/-- Runs start with the receiving half of a new connection. -/
def system (ι : Type) : TransitionSystem (Intake ι) (ℕ × Held ι) where
  init intake := ∃ curMsg : HeldMsg ι, curMsg.fsMsgBatch = [] ∧ curMsg.garbage = [] ∧
    intake = ⟨⟨1, 1, 0, [], curMsg⟩, [], [], []⟩
  step := step

/-- A message hands on at most one packet, its `raw_pkt`. -/
def HandsOn (msg : HeldMsg ι) (kept : List ι) : Prop :=
  kept.length ≤ 1 ∧ ∀ handle ∈ kept, msg.rawPkt.map Held.handle = some handle

/-- Each packet given was collected, was handed on as a raw packet, or is in the batch. -/
def Accounted (intake : Intake ι) : Prop :=
  ∃ kept : List (List ι), List.Forall₂ HandsOn intake.returned kept ∧
    intake.given.Perm (intake.collected ++ kept.flatten ++ Held.handles intake.receiver.batch)

variable {intake : Intake ι}

theorem Accounted.refused (h : intake.Accounted) {handle : ι} {reception : Reception ι}
    (hperm : (reception.collected ++ Held.handles reception.receiver.batch).Perm
      (Held.handles intake.receiver.batch ++ [handle])) :
    Accounted ⟨reception.receiver, intake.given ++ [handle], intake.collected ++ reception.collected,
      intake.returned⟩ := by
  obtain ⟨kept, hkept, hgiven⟩ := h
  refine ⟨kept, hkept, ?_⟩
  have hnew := hgiven.append_right [handle]
  rw [List.append_assoc] at hnew
  refine hnew.trans ((hperm.symm.append_left _).trans ?_)
  rw [List.append_assoc, List.append_assoc, List.append_assoc]
  refine List.Perm.append_left _ ?_
  rw [← List.append_assoc, ← List.append_assoc]
  exact List.Perm.append_right _ List.perm_append_comm

theorem Accounted.returned (h : intake.Accounted) {handle : ι} {msg : HeldMsg ι} {receiver : Receiver ι}
    {kept : List ι} (hbatch : receiver.batch = []) (hhands : HandsOn msg kept)
    (hperm : (Held.handles msg.garbage ++ kept).Perm (Held.handles intake.receiver.batch ++ [handle])) :
    Accounted ⟨receiver, intake.given ++ [handle], intake.collected ++ Held.handles msg.garbage,
      intake.returned ++ [msg]⟩ := by
  obtain ⟨before, hbefore, hgiven⟩ := h
  refine ⟨before ++ [kept], List.rel_append hbefore (.cons hhands .nil), ?_⟩
  have hnew := hgiven.append_right [handle]
  rw [List.append_assoc] at hnew
  refine hnew.trans ((hperm.symm.append_left _).trans ?_)
  rw [hbatch, Held.handles_nil, List.append_nil, List.flatten_append, List.flatten_singleton,
    List.append_assoc, List.append_assoc]
  refine List.Perm.append_left _ ?_
  rw [← List.append_assoc, ← List.append_assoc]
  exact List.Perm.append_right _ List.perm_append_comm

theorem step_of_countsAddUp (hsettled : intake.receiver.Settled) (haccounted : intake.Accounted)
    {held : Held ι} (hcounts : intake.receiver.CountsAddUp false held) :
    ∃ rounds intake', (∀ fuel ≥ rounds, intake.step (fuel, held) = some intake') ∧
      intake'.receiver.Settled ∧ intake'.Accounted := by
  obtain ⟨rounds, reception, hrecv, hdelivered⟩ := hsettled.recv hcounts
  cases hmessage : reception.message with
  | none =>
    obtain ⟨hperm, hclean⟩ := hdelivered.refused hmessage
    refine ⟨rounds, _, fun fuel hfuel ↦ ?_, hclean, haccounted.refused hperm⟩
    rw [step, hrecv fuel hfuel, Option.map_some]
    simp only [hmessage]
  | some msg =>
    obtain ⟨hnone, hbatch, hmsg, kept, hlength, -, hkept, hperm⟩ := hdelivered.returned msg hmessage
    refine ⟨rounds, ⟨reception.receiver.cleanMsg.2, intake.given ++ [held.handle],
      intake.collected ++ Held.handles msg.garbage, intake.returned ++ [msg]⟩, fun fuel hfuel ↦ ?_,
      hdelivered.settled, haccounted.returned hbatch ⟨hlength, hkept⟩ hperm⟩
    rw [step, hrecv fuel hfuel, Option.map_some]
    simp only [hmessage, hnone, List.append_nil, cleanMsg, hmsg, HeldMsg.clean]

theorem step_of_le {intake' : Intake ι} {fuel more : ℕ} (hle : fuel ≤ more) {held : Held ι}
    (h : intake.step (fuel, held) = some intake') : intake.step (more, held) = some intake' := by
  obtain ⟨reception, hrecv, heq⟩ := map_eq_some_iff.1 h
  exact map_eq_some_iff.2 ⟨reception, recv_of_le hle hrecv, heq⟩

theorem settled_of_reachable
    (hreach : (system ι).Reachable (fun intake input ↦ intake.receiver.CountsAddUp false input.2) intake) :
    intake.receiver.Settled ∧ intake.Accounted := by
  apply hreach.invariant
  · rintro intake ⟨curMsg, hfs, hgarbage, rfl⟩
    exact ⟨⟨hfs, hgarbage, .inl rfl⟩, [], .nil, .nil⟩
  · rintro intake ⟨fuel, held⟩ intake' ⟨hsettled, haccounted⟩ hcounts hstep
    obtain ⟨rounds, intake'', hrounds, hinvariant⟩ := step_of_countsAddUp hsettled haccounted hcounts
    have hmore := step_of_le (le_max_left fuel rounds) hstep
    have hequal : intake' = intake'' := by
      rw [hrounds (max fuel rounds) (le_max_right fuel rounds)] at hmore
      exact (Option.some.inj hmore).symm
    rw [hequal]
    exact hinvariant

/-- In every run on packets whose counts add up the batch has room for another packet, all packets are accounted
for, and `recv` returns on every such packet. -/
theorem receive_total {intake : Intake ι}
    (hreach : (system ι).Reachable (fun intake input ↦ intake.receiver.CountsAddUp false input.2) intake) :
    intake.receiver.batch.length < kMaxBurst ∧ intake.Accounted ∧
      ∀ held, intake.receiver.CountsAddUp false held →
        ∃ rounds intake', ∀ fuel ≥ rounds, intake.step (fuel, held) = some intake' := by
  obtain ⟨hsettled, haccounted⟩ := settled_of_reachable hreach
  refine ⟨hsettled.length_lt, haccounted, fun held hcounts ↦ ?_⟩
  obtain ⟨rounds, intake', hstep, -⟩ := step_of_countsAddUp hsettled haccounted hcounts
  exact ⟨rounds, intake', hstep⟩

end Intake

end

/-- A control packet with number one that announces a message of one packet; `dataLen` bytes behind the two
headers belong to it. -/
def controlPacket (body : List UInt8) (dataLen : ℕ) (h : dataLen ≤ body.length) : Packet where
  dataOff := 128
  bytes := List.replicate magicNumOffset 0 ++ [msgMagicNum, 0] ++ littleEndian 4 1 ++
    MessageHeader.bytes ⟨1, 2, 3, 4, 1⟩ ++ body
  dataLen := reliableHeaderSize + MessageHeader.size + dataLen
  fits := by
    have hfront : (List.replicate magicNumOffset 0 ++ [msgMagicNum, 0] ++ littleEndian 4 1 ++
        MessageHeader.bytes ⟨1, 2, 3, 4, 1⟩).length = reliableHeaderSize + MessageHeader.size := by decide
    rw [List.length_append, hfront]
    omega

/-- A structure of three bytes. -/
def cstructPacket : Packet :=
  controlPacket (littleEndian SubMessage.tagSize SubMessage.cstruct.tag ++ [7, 8, 9]) 11 (by decide)

/-- The tag of a flow-state sub-message, with a zero for its count in the next byte. -/
def tagPacket : Packet :=
  controlPacket (littleEndian SubMessage.tagSize SubMessage.binaryFlowState.tag ++ [0]) 8 (by decide)

namespace Intake

/-- The receiving half of a new connection. -/
def start : Intake ℕ := ⟨⟨1, 1, 0, [], ⟨2, ⟨0, 0, 0, 0, 0⟩, none, [], none, []⟩⟩, [], [], []⟩

theorem init_start : (system ℕ).init start := ⟨_, rfl, rfl, rfl⟩

/-- After the structure has been received everything is with the collector. -/
theorem receive_total_cstruct : ∃ intake : Intake ℕ, start.step (1, ⟨0, cstructPacket⟩) = some intake ∧
    intake.collected = [0] ∧ intake.receiver.batch.length < kMaxBurst ∧ intake.Accounted := by
  obtain ⟨intake, hstep, hcollected⟩ : ∃ intake ∈ start.step (1, ⟨0, cstructPacket⟩),
      intake.collected = [0] := by decide +kernel
  have hcounts : start.receiver.CountsAddUp false ⟨0, cstructPacket⟩ := by
    intro _
    refine ⟨by decide +kernel, by decide +kernel, fun _ ↦ .cstruct (by decide +kernel) .done⟩
  have htotal := receive_total (.next (1, ⟨0, cstructPacket⟩) (.start init_start) hcounts hstep)
  exact ⟨intake, hstep, hcollected, htotal.1, htotal.2.1⟩

/-- A sub-message of no packets in a packet too short to lose its tag is looked at again and again. -/
theorem format_endless {ι : Type} {msg : HeldMsg ι} {held : Held ι}
    (htag : SubMessage.ofPacket held.pkt = some .binaryFlowState)
    (hnum : held.pkt.read SubMessage.tagSize 1 = 0) (hshort : held.pkt.dataLen < SubMessage.tagSize + 1)
    (fuel : ℕ) : msg.format fuel [held] = none := by
  induction fuel with
  | zero => rfl
  | succ _ ih =>
    have hsame : held.adj (SubMessage.tagSize + 1) = held := by
      rw [Held.adj, Packet.adj, dif_pos hshort]
    rw [HeldMsg.format, htag]
    dsimp only
    rw [hnum, hsame]
    exact ih

theorem settled_start : start.receiver.Settled := ⟨rfl, rfl, .inl rfl⟩

/-- The call of `recv` with the bare tag never returns. -/
theorem tag_packet_endless : start.receiver.Expects ⟨0, tagPacket⟩ ∧
    ∀ fuel, start.step (fuel, ⟨0, tagPacket⟩) = none := by
  have hexpects : start.receiver.Expects ⟨0, tagPacket⟩ := ⟨by decide +kernel, by decide +kernel⟩
  refine ⟨hexpects, fun fuel ↦ ?_⟩
  obtain ⟨accepted, haccept, hbatch, hmsg⟩ := settled_start.recvInSequence ⟨0, tagPacket⟩
  have hcomplete : accepted.batch.length = accepted.curMsg.rmh.msgPktNum.toNat := by
    rw [hbatch, hmsg]
    decide +kernel
  have hformat : accepted.curMsg.format fuel accepted.batch = none := by
    rw [hbatch]
    exact format_endless (by decide +kernel) (by decide +kernel) (by decide +kernel) fuel
  rw [step, Receiver.recv, if_neg hexpects.1, if_neg (not_not.2 hexpects.2), haccept]
  change (accepted.deliver fuel).map _ = none
  rw [Receiver.deliver, if_pos hcomplete, hformat]
  rfl

end Intake

end NfvActor.Reliable
