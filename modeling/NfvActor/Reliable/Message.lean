import Mathlib.Tactic
import NfvActor.Reliable.SendQueue

/-!
# Packets and the messages they are assembled into

A reliable message is a run of packets. The first starts with a `reliable_message_header`, and every sub-message
with a tag of eight bytes that counts its packets. `SingleMsg.format` takes such a run apart.
-/

namespace NfvActor.Reliable

/-- A packet buffer from `head_data` to its end; its first `dataLen` bytes belong to the packet. -/
structure Packet where
  dataOff : ℕ
  bytes : List UInt8
  dataLen : ℕ
  fits : dataLen ≤ bytes.length
deriving DecidableEq

namespace Packet

/-- A packet that fills its buffer behind `dataOff` bytes of headroom. -/
def ofBytes (dataOff : ℕ) (bytes : List UInt8) : Packet :=
  ⟨dataOff, bytes, bytes.length, le_rfl⟩

/-- `SNBUF_HEADROOM` and `SNBUF_DATA`. -/
def headroom : ℕ := 128

@[inherit_doc headroom]
def dataRoom : ℕ := 2048

/-- A newly allocated packet with `dataOff` bytes in front of its data. -/
def alloc (dataOff : ℕ) (data : List UInt8) : Packet where
  dataOff := dataOff
  bytes := data ++ List.replicate (headroom + dataRoom - dataOff - data.length) 0
  dataLen := data.length
  fits := by
    rw [List.length_append]
    omega

/-- Reads a little-endian field of the given width. -/
def read (pkt : Packet) (offset width : ℕ) : ℕ :=
  ((pkt.bytes.drop offset).take width).foldr (fun byte rest ↦ byte.toNat + 256 * rest) 0

/-- `Packet::adj`; a request for more bytes than there are changes nothing. -/
def adj (pkt : Packet) (len : ℕ) : Packet :=
  if h : pkt.dataLen < len then
    pkt
  else
    ⟨pkt.dataOff + len, pkt.bytes.drop len, pkt.dataLen - len, by
      have hfits := pkt.fits
      rw [List.length_drop]
      omega⟩

/-- `Packet::prepend` and a write of `front`. Without headroom the source writes through a null pointer. -/
def prepend (pkt : Packet) (front : List UInt8) : Option Packet :=
  if pkt.dataOff < front.length then
    none
  else
    some ⟨pkt.dataOff - front.length, front ++ pkt.bytes, front.length + pkt.dataLen, by
      have hfits := pkt.fits
      rw [List.length_append]
      omega⟩

/-- `Packet::append` and a copy of `back`. Without tailroom the source writes through a null pointer. -/
def append (pkt : Packet) (back : List UInt8) : Option Packet :=
  if h : pkt.bytes.length < pkt.dataLen + back.length then
    none
  else
    some ⟨pkt.dataOff, pkt.bytes.take pkt.dataLen ++ back ++ pkt.bytes.drop (pkt.dataLen + back.length),
      pkt.dataLen + back.length, by
        have hfits := pkt.fits
        simp only [List.length_append, List.length_take, List.length_drop]
        omega⟩

/-- A store through `head_data`, whatever the length of the packet. -/
def write (pkt : Packet) (offset : ℕ) (field : List UInt8) : Packet where
  dataOff := pkt.dataOff
  bytes := pkt.bytes.take offset ++ field ++ pkt.bytes.drop (offset + field.length)
  dataLen := pkt.dataLen
  fits := by
    have hfits := pkt.fits
    simp only [List.length_append, List.length_take, List.length_drop]
    omega

/-- The bytes that belong to the packet. -/
def data (pkt : Packet) : List UInt8 :=
  pkt.bytes.take pkt.dataLen

end Packet

/-- The bytes of a field of the given width, least significant first. -/
def littleEndian : ℕ → ℕ → List UInt8
  | 0, _ => []
  | width + 1, value => UInt8.ofNat value :: littleEndian width (value / 256)

/-- The forty bytes of a `reliable_header`; one byte of padding aligns `seq_num`. -/
def ReliableHeader.bytes (header : ReliableHeader) : List UInt8 :=
  header.frame ++ [header.magicNum, 0] ++ littleEndian 4 header.seqNum.toNat

/-- `reliable_message_header`. -/
structure MessageHeader where
  sendActorId : UInt32
  recvActorId : UInt32
  msgId : UInt32
  msgType : UInt16
  msgPktNum : UInt16
deriving DecidableEq, Repr

namespace MessageHeader

/-- `sizeof(reliable_message_header)`. -/
def size : ℕ := 16

def bytes (header : MessageHeader) : List UInt8 :=
  littleEndian 4 header.sendActorId.toNat ++ littleEndian 4 header.recvActorId.toNat ++
    littleEndian 4 header.msgId.toNat ++ littleEndian 2 header.msgType.toNat ++
    littleEndian 2 header.msgPktNum.toNat

/-- The header at the start of a packet. -/
def ofPacket (pkt : Packet) : MessageHeader where
  sendActorId := UInt32.ofNat (pkt.read 0 4)
  recvActorId := UInt32.ofNat (pkt.read 4 4)
  msgId := UInt32.ofNat (pkt.read 8 4)
  msgType := UInt16.ofNat (pkt.read 12 2)
  msgPktNum := UInt16.ofNat (pkt.read 14 2)

end MessageHeader

/-- Appends to a `PacketBatch`, which has room for `kMaxBurst` packets. -/
def batchAdd {α : Type*} (batch : List α) (pkt : α) : Option (List α) :=
  if batch.length < kMaxBurst then some (batch ++ [pkt]) else none

/-- `sub_message_type_enum`. -/
inductive SubMessage
  | cstruct
  | binaryFlowState
  | packet
deriving DecidableEq, Repr

namespace SubMessage

/-- The tag values of `sub_message_type_enum`. -/
def tag : SubMessage → ℕ
  | cstruct => 0xA1F2DE2399BC7764
  | binaryFlowState => 0xB203F2F310AC2741
  | packet => 0xDFFD033011227A64

/-- `sizeof(uint64_t)`. -/
def tagSize : ℕ := 8

/-- The sub-message a packet opens. -/
def ofPacket (pkt : Packet) : Option SubMessage :=
  [cstruct, binaryFlowState, packet].find? (fun kind ↦ kind.tag = pkt.read 0 tagSize)

/-- A packet opens a sub-message exactly when it carries its tag. -/
theorem ofPacket_eq_some_iff {pkt : Packet} {kind : SubMessage} :
    ofPacket pkt = some kind ↔ pkt.read 0 tagSize = kind.tag := by
  constructor
  · intro hfound
    have hkind := List.find?_some hfound
    exact (of_decide_eq_true hkind).symm
  · intro htag
    rw [ofPacket, htag]
    cases kind <;> decide

end SubMessage

/-- `reliable_single_msg`. The two pointers are kept between messages. -/
structure SingleMsg where
  sendRuntimeId : ℤ
  rmh : MessageHeader
  cstructPkt : Option Packet
  fsMsgBatch : List Packet
  rawPkt : Option Packet
  garbage : List Packet
deriving DecidableEq

namespace SingleMsg

/-- `reliable_single_msg::clean`: the garbage goes to the collector. -/
def clean (msg : SingleMsg) : List Packet × SingleMsg :=
  (msg.garbage, { msg with fsMsgBatch := [], garbage := [] })

/-- The inner loop of a flow-state sub-message: `num` packets join both batches. -/
def addFlowState (msg : SingleMsg) : ℕ → List Packet → Option SingleMsg
  | 0, _ => some msg
  | _ + 1, [] => none
  | num + 1, pkt :: rest => do
    let fsMsgBatch ← batchAdd msg.fsMsgBatch pkt
    let garbage ← batchAdd msg.garbage pkt
    addFlowState { msg with fsMsgBatch, garbage } num rest

/-- `case packet`: a packet cut in two is glued together again. -/
def addRawPacket (msg : SingleMsg) (num : ℕ) (pkt : Packet) (rest : List Packet) :
    Option SingleMsg :=
  if num = 2 then
    match rest with
    | [] => none
    | supplement :: _ => do
      let whole ← pkt.append supplement.data
      let garbage ← batchAdd msg.garbage supplement
      some { msg with rawPkt := some whole, garbage }
  else
    some { msg with rawPkt := some pkt }

/-- `reliable_single_msg::format` from position `i` on. A sub-message of zero packets does not advance the loop,
so its rounds are counted in `fuel`. -/
def format (msg : SingleMsg) : ℕ → List Packet → Option (Bool × SingleMsg)
  | _, [] => some (true, msg)
  | 0, _ :: _ => none
  | fuel + 1, pkt :: rest =>
    match SubMessage.ofPacket pkt with
    | some .cstruct => do
      let cstructPkt := pkt.adj SubMessage.tagSize
      let garbage ← batchAdd msg.garbage cstructPkt
      format { msg with cstructPkt := some cstructPkt, garbage } fuel rest
    | some .binaryFlowState => do
      let num := pkt.read SubMessage.tagSize 1
      let batch := pkt.adj (SubMessage.tagSize + 1) :: rest
      let msg ← addFlowState msg num batch
      format msg fuel (batch.drop num)
    | some .packet => do
      let num := pkt.read SubMessage.tagSize 1
      let pkt := pkt.adj (SubMessage.tagSize + 1)
      let msg ← addRawPacket msg num pkt rest
      format msg fuel ((msg.rawPkt.getD pkt :: rest).drop num)
    | none => some (false, { msg with garbage := [] })

end SingleMsg

end NfvActor.Reliable
