import Mathlib.Tactic
import NfvActor.Actor.FlowKeys
import NfvActor.Actor.Handlers
import NfvActor.Reliable.StateAndPacket

/-!
# The bytes of a replication message

`replication_output` writes headers, key, flow states and processed packet into one new packet, at offsets that
three other functions compute again. They agree, and the replica gets everything back, as long as the new packet
has room for it. Nothing checks that it has.
-/

namespace NfvActor.Replication

open NfvActor.Reliable (Packet littleEndian fromLittleEndian)
open NfvActor.Reliable.PeerToPeer (pktMsgOffset)
open NfvActor.Actor

/-- The memory of a packet from its headroom on, with what the last owner left. -/
structure Buffer where
  bytes : List UInt8
  size : bytes.length = Packet.headroom + Packet.dataRoom

/-- A new packet after `set_data_off`, `set_total_len` and `set_data_len`. Lengths beyond the buffer make the
writes overrun it. -/
def Buffer.packet (buffer : Buffer) (dataOff len : ℕ) : Option Packet :=
  if h : dataOff + len ≤ buffer.bytes.length then
    some ⟨dataOff, buffer.bytes.drop dataOff, len, by
      rw [List.length_drop]
      omega⟩
  else
    none

/-- The flow states of an actor with all slots allocated, one for each size. -/
structure FlowStates (sizes : List ℕ) where
  states : List (List UInt8)
  sized : states.map List.length = sizes

/-- The part of a `flow_actor` that is replicated. -/
structure ActorImage (sizes : List ℕ) where
  inputHeader : EtherHeader
  outputHeader : EtherHeader
  flowKey : FlowKey
  flowStates : FlowStates sizes
  keySize : flowKey.length = flowKeySize

/-- A `flow_ether_header` in memory. -/
def headerBytes (header : EtherHeader) : List UInt8 :=
  littleEndian 4 header.destRtid.toNat ++ header.bytes

/-- `sizeof(uint32_t)+sizeof(struct ether_addr)`. -/
def headerPart : ℕ := 4 + 6

/-- The offset of the flow states: behind two headers and the key. -/
def statesOffset : ℕ := 2 * headerPart + flowKeySize

variable {sizes : List ℕ} (header : EtherHeader) (states : List (List UInt8)) {front : List UInt8}
  {field : List UInt8}

/-- The loop over the chain. -/
def writeStates : List (List UInt8) → ℕ → Packet → Packet
  | [], _, pkt => pkt
  | state :: rest, offset, pkt => writeStates rest (offset + state.length) (pkt.write offset state)

/-- The packet that `replication_output` sends. `total_fs_size_` is the sum of the sizes. -/
def replicationOutput (source : ActorImage sizes) (pkt : Packet) (buffer : Buffer) : Option Packet := do
  let totalSize := statesOffset + sizes.sum
  let fsStatePkt ← buffer.packet (Packet.headroom + pktMsgOffset) (totalSize + pkt.dataLen)
  let fsStatePkt := fsStatePkt.write 0 ((headerBytes source.inputHeader).take headerPart)
  let fsStatePkt := fsStatePkt.write headerPart ((headerBytes source.outputHeader).take headerPart)
  let fsStatePkt := fsStatePkt.write (2 * headerPart) source.flowKey
  let fsStatePkt := writeStates source.flowStates.states statesOffset fsStatePkt
  some (fsStatePkt.write totalSize (pkt.bytes.take pkt.dataLen))

/-- `single_key` in `process_reliable_msg::match`. -/
def singleKey (pkt : Packet) : FlowKey := pkt.bytesAt (2 * headerPart) flowKeySize

/-- The mask of a six byte address. -/
def macMask : UInt64 := 0x0000FFffFFffFFff

/-- A header in `flow_actor_init_with_first_rep_pkt_t`. -/
def readHeader (pkt : Packet) (offset : ℕ) (srcMac : UInt64) : EtherHeader :=
  .init (UInt32.ofNat (pkt.read offset 4)) (UInt64.ofNat (pkt.read (offset + 4) 8) &&& macMask) srcMac

/-- The loop of `rep_fs_pkt_msg_t`. -/
def readStates (pkt : Packet) : List ℕ → ℕ → List (List UInt8)
  | [], _ => []
  | size :: rest, offset => pkt.bytesAt offset size :: readStates pkt rest (offset + size)

theorem length_readStates (pkt : Packet) (sizes : List ℕ) (offset : ℕ) :
    (readStates pkt sizes offset).map List.length = sizes := by
  induction sizes generalizing offset with
  | nil => rfl
  | cons _ _ ih => rw [readStates, List.map_cons, Packet.length_bytesAt, ih]

/-- The replica after `flow_actor_init_with_first_rep_pkt_t` and `rep_fs_pkt_msg_t`, and the packet it puts out.
A message too short for its states has a negative packet length. -/
def firstReplication (sizes : List ℕ) (inputPortMac outputPortMac : UInt64) (pkt : Packet) (buffer : Buffer) :
    Option (ActorImage sizes × Packet) :=
  if pkt.dataLen < statesOffset + sizes.sum then
    none
  else
    let pktLen := pkt.dataLen - statesOffset - sizes.sum
    (buffer.packet Packet.headroom pktLen).map fun output ↦
      ({ inputHeader := readHeader pkt 0 inputPortMac
         outputHeader := readHeader pkt headerPart outputPortMac
         flowKey := singleKey pkt
         flowStates := ⟨readStates pkt sizes statesOffset, length_readStates pkt sizes statesOffset⟩
         keySize := pkt.length_bytesAt _ _ },
        output.write 0 (pkt.bytesAt (statesOffset + sizes.sum) pktLen))

/-- The packet starts with these bytes. -/
def Written (pkt : Packet) (front : List UInt8) : Prop := pkt.bytes.take front.length = front

variable {pkt arrived : Packet} {before after : List UInt8} {source : ActorImage sizes}

/-- A field that is written behind the others. -/
theorem Written.write (h : Written pkt front) (field : List UInt8) :
    Written (pkt.write front.length field) (front ++ field) := by
  change List.take _ (pkt.bytes.take front.length ++ field ++ _) = _
  rw [Written] at h
  rw [h]
  exact List.take_left

theorem written_writeStates (h : Written pkt front) :
    Written (writeStates states front.length pkt) (front ++ states.flatten) ∧
      (writeStates states front.length pkt).dataLen = pkt.dataLen := by
  induction states generalizing pkt front with
  | nil =>
    rw [List.flatten_nil, List.append_nil]
    exact ⟨h, rfl⟩
  | cons state _ ih =>
    have hnext := ih (h.write state)
    rw [List.length_append, List.append_assoc] at hnext
    exact hnext

theorem length_headerPart : ((headerBytes header).take headerPart).length = headerPart := by
  simp [headerBytes, EtherHeader.bytes, headerPart]

/-- The runtime id and the destination address come first. -/
theorem take_headerBytes : (headerBytes header).take headerPart =
    littleEndian 4 header.destRtid.toNat ++ littleEndian 6 header.dAddr.toNat := by
  rw [headerBytes, EtherHeader.bytes, List.append_assoc, ← List.append_assoc]
  exact List.take_left' (by simp [headerPart])

theorem length_flatten_states (flowStates : FlowStates sizes) :
    flowStates.states.flatten.length = sizes.sum := by
  rw [List.length_flatten, flowStates.sized]

/-- The bytes in front of the packet. -/
def frontBytes (source : ActorImage sizes) : List UInt8 :=
  (headerBytes source.inputHeader).take headerPart ++ (headerBytes source.outputHeader).take headerPart ++
    source.flowKey ++ source.flowStates.states.flatten

theorem length_frontBytes (source : ActorImage sizes) :
    (frontBytes source).length = statesOffset + sizes.sum := by
  simp only [frontBytes, List.length_append, length_headerPart, source.keySize,
    length_flatten_states, statesOffset]
  omega

/-- The message fits into the new packet. -/
def Fits (sizes : List ℕ) (pkt : Packet) : Prop :=
  Packet.headroom + pktMsgOffset + (statesOffset + sizes.sum + pkt.dataLen) ≤ Packet.headroom + Packet.dataRoom

theorem exists_packet_iff (buffer : Buffer) (dataOff len : ℕ) :
    (∃ pkt, buffer.packet dataOff len = some pkt ∧ pkt.dataLen = len) ↔
      dataOff + len ≤ Packet.headroom + Packet.dataRoom := by
  rw [← buffer.size, Buffer.packet]
  split
  next h => exact ⟨fun _ ↦ h, fun _ ↦ ⟨_, rfl, rfl⟩⟩
  next h =>
    refine ⟨?_, fun hfits ↦ absurd hfits h⟩
    rintro ⟨pkt, hpkt, -⟩
    cases hpkt

/-- What is sent holds headers, key, states and packet in order. -/
theorem data_replicationOutput (source : ActorImage sizes) (pkt : Packet) (buffer : Buffer)
    (h : Fits sizes pkt) :
    ∃ encoded, replicationOutput source pkt buffer = some encoded ∧
      encoded.data = frontBytes source ++ pkt.data := by
  obtain ⟨fresh, hfresh, hlen⟩ := (exists_packet_iff buffer _ _).2 h
  rw [replicationOutput]
  simp only [hfresh, Option.bind_eq_bind, Option.bind_some, Option.some.injEq, exists_eq_left']
  have hstart : Written fresh [] := rfl
  have hinput := hstart.write ((headerBytes source.inputHeader).take headerPart)
  have houtput := hinput.write ((headerBytes source.outputHeader).take headerPart)
  have hkey := houtput.write source.flowKey
  obtain ⟨hstates, hdataLen⟩ := written_writeStates source.flowStates.states hkey
  have hall := hstates.write (pkt.bytes.take pkt.dataLen)
  have hpart : headerPart + headerPart = 2 * headerPart := (two_mul _).symm
  have hoffset : 2 * headerPart + flowKeySize = statesOffset := rfl
  simp only [List.length_nil, List.nil_append, List.length_append, length_headerPart, source.keySize,
    length_flatten_states, hpart, hoffset] at hall hdataLen
  have hlength : (frontBytes source ++ pkt.data).length = fresh.dataLen := by
    rw [List.length_append, length_frontBytes, Packet.length_data, hlen]
  rw [Packet.data]
  change List.take (writeStates _ _ _).dataLen _ = _
  rw [hdataLen]
  change List.take fresh.dataLen _ = _
  rw [← hlength]
  exact hall

/-! ## What is read -/

theorem bytesAt_eq (h : pkt.bytes = before ++ field ++ after) :
    pkt.bytesAt before.length field.length = field := by
  apply List.ext_getElem
  · exact pkt.length_bytesAt _ _
  · intro index hindex hindex'
    simp only [Packet.bytesAt, h, List.getElem_map, List.getElem_range, List.getD_eq_getElem?_getD,
      List.append_assoc]
    rw [List.getElem?_append_right (Nat.le_add_right _ _), Nat.add_sub_cancel_left,
      List.getElem?_append_left hindex', List.getElem?_eq_getElem hindex']
    rfl

theorem readStates_eq (h : pkt.bytes = before ++ states.flatten ++ after) :
    readStates pkt (states.map List.length) before.length = states := by
  induction states generalizing before with
  | nil => rfl
  | cons state rest ih =>
    rw [List.flatten_cons] at h
    have hstate : pkt.bytes = before ++ state ++ (rest.flatten ++ after) := by
      rw [h]
      simp only [List.append_assoc]
    have hrest : pkt.bytes = (before ++ state) ++ rest.flatten ++ after := by
      rw [h]
      simp only [List.append_assoc]
    rw [List.map_cons, readStates, bytesAt_eq hstate, ← List.length_append, ih hrest]

theorem toNat_and_macMask (word : UInt64) : (word &&& macMask).toNat = word.toNat % 256 ^ 6 := by
  rw [UInt64.toNat_and]
  exact Nat.and_two_pow_sub_one_eq_mod word.toNat 48

/-- The masked load of eight bytes keeps the six bytes of the address. -/
theorem readHeader_eq (srcMac : UInt64)
    (h : pkt.bytes = before ++ (headerBytes header).take headerPart ++ after) :
    readHeader pkt before.length srcMac = .init header.destRtid header.dAddr srcMac := by
  rw [take_headerBytes] at h
  have hrtid : pkt.bytes = before ++ littleEndian 4 header.destRtid.toNat ++
      (littleEndian 6 header.dAddr.toNat ++ after) := by
    rw [h]
    simp only [List.append_assoc]
  have haddr : pkt.bytes = (before ++ littleEndian 4 header.destRtid.toNat) ++
      littleEndian 6 header.dAddr.toNat ++ after := by
    rw [h]
    simp only [List.append_assoc]
  have hread := pkt.read_eq hrtid
  rw [Reliable.length_littleEndian, Reliable.fromLittleEndian_littleEndian,
    Nat.mod_eq_of_lt (by simpa using UInt32.toNat_lt _)] at hread
  have hlow : littleEndian 6 (pkt.read (before.length + 4) 8) = littleEndian 6 header.dAddr.toNat := by
    rw [pkt.littleEndian_read _ (show 6 ≤ 8 by decide)]
    have hbytes := bytesAt_eq haddr
    rwa [List.length_append, Reliable.length_littleEndian, Reliable.length_littleEndian] at hbytes
  have hmac : (UInt64.ofNat (pkt.read (before.length + 4) 8) &&& macMask) &&& macMask =
      header.dAddr &&& macMask := by
    have hvalue := congrArg fromLittleEndian hlow
    rw [Reliable.fromLittleEndian_littleEndian, Reliable.fromLittleEndian_littleEndian] at hvalue
    apply UInt64.toNat_inj.1
    rw [toNat_and_macMask, toNat_and_macMask, toNat_and_macMask, UInt64.toNat_ofNat', Nat.mod_mod,
      Nat.mod_mod_of_dvd _ (by norm_num), hvalue]
  rw [readHeader, hread, UInt32.ofNat_toNat]
  exact congrArg (fun mac ↦ (⟨header.destRtid, mac, _⟩ : EtherHeader)) hmac

/-- The replica that `flow_actor_init_with_first_rep_pkt_t` makes, with the addresses of its own ports. -/
def ActorImage.replica (source : ActorImage sizes) (inputPortMac outputPortMac : UInt64) : ActorImage sizes :=
  { source with
    inputHeader := .init source.inputHeader.destRtid source.inputHeader.dAddr inputPortMac
    outputHeader := .init source.outputHeader.destRtid source.outputHeader.dAddr outputPortMac }

theorem data_write_all (h : pkt.dataLen = field.length) : (pkt.write 0 field).data = field := by
  rw [Packet.data]
  change List.take pkt.dataLen (pkt.bytes.take 0 ++ field ++ _) = _
  rw [h, List.take_zero, List.nil_append]
  exact List.take_left

variable (hdata : arrived.data = frontBytes source ++ pkt.data)

include hdata

theorem singleKey_eq : singleKey arrived = source.flowKey := by
  have hbytes := Packet.bytes_of_data hdata
  rw [frontBytes, List.append_assoc] at hbytes
  have hfield := bytesAt_eq hbytes
  rwa [List.length_append, length_headerPart, length_headerPart, source.keySize, ← two_mul] at hfield

theorem readHeaders_eq (inputPortMac outputPortMac : UInt64) :
    readHeader arrived 0 inputPortMac = (source.replica inputPortMac outputPortMac).inputHeader ∧
      readHeader arrived headerPart outputPortMac =
        (source.replica inputPortMac outputPortMac).outputHeader := by
  have hbytes := Packet.bytes_of_data hdata
  rw [frontBytes, List.append_assoc, List.append_assoc] at hbytes
  constructor
  · rw [List.append_assoc, ← List.nil_append (List.take _ _)] at hbytes
    exact readHeader_eq source.inputHeader inputPortMac hbytes
  · rw [← length_headerPart source.inputHeader]
    exact readHeader_eq source.outputHeader outputPortMac hbytes

/-- Whatever stands behind the data, replica and packet are read from it. -/
theorem firstReplication_eq (hroom : Packet.headroom + pkt.dataLen ≤ Packet.headroom + Packet.dataRoom)
    (inputPortMac outputPortMac : UInt64) (buffer : Buffer) :
    ∃ output, firstReplication sizes inputPortMac outputPortMac arrived buffer =
        some (source.replica inputPortMac outputPortMac, output) ∧ output.data = pkt.data := by
  have hlen : arrived.dataLen = statesOffset + sizes.sum + pkt.dataLen := by
    rw [← Packet.length_data, hdata, List.length_append, length_frontBytes, Packet.length_data]
  have hpktLen : arrived.dataLen - statesOffset - sizes.sum = pkt.dataLen := by omega
  have hbytes := Packet.bytes_of_data hdata
  have hpart := length_headerPart
  have hpacket : arrived.bytesAt (statesOffset + sizes.sum) pkt.dataLen = pkt.data := by
    rw [← List.append_assoc] at hbytes
    have hfield := bytesAt_eq hbytes
    rwa [length_frontBytes, Packet.length_data] at hfield
  rw [frontBytes] at hbytes
  generalize pkt.data ++ arrived.bytes.drop arrived.dataLen = behind at hbytes
  obtain ⟨hinput, houtput⟩ := readHeaders_eq hdata inputPortMac outputPortMac
  have hstates : readStates arrived sizes statesOffset = source.flowStates.states := by
    have hfields := readStates_eq source.flowStates.states hbytes
    rwa [source.flowStates.sized, List.length_append, List.length_append, hpart, hpart, source.keySize,
      ← two_mul] at hfields
  obtain ⟨output, houtputPkt, houtputLen⟩ := (exists_packet_iff buffer _ _).2 hroom
  refine ⟨output.write 0 pkt.data, ?_, data_write_all (houtputLen.trans pkt.length_data.symm)⟩
  rw [firstReplication, if_neg (by omega)]
  simp only [hpktLen, houtputPkt, Option.map_some, hpacket, hinput, houtput, singleKey_eq hdata, hstates]
  rfl

omit hdata

/-- The replica has the key, runtime ids, destination addresses and flow states of the source, and puts out its
packet. -/
structure Replicates (source replica : ActorImage sizes) (pkt output : Packet) : Prop where
  flowKey : replica.flowKey = source.flowKey
  inputRtid : replica.inputHeader.destRtid = source.inputHeader.destRtid
  inputMac : littleEndian 6 replica.inputHeader.dAddr.toNat = littleEndian 6 source.inputHeader.dAddr.toNat
  outputRtid : replica.outputHeader.destRtid = source.outputHeader.destRtid
  outputMac : littleEndian 6 replica.outputHeader.dAddr.toNat = littleEndian 6 source.outputHeader.dAddr.toNat
  flowStates : replica.flowStates.states = source.flowStates.states
  packet : output.data = pkt.data

theorem dAddr_init (destRtid : UInt32) (destMac srcMac : UInt64) :
    littleEndian 6 (EtherHeader.init destRtid destMac srcMac).dAddr.toNat = littleEndian 6 destMac.toNat := by
  have hmod := Reliable.littleEndian_mod 6 0 destMac.toNat
  rw [List.replicate_zero, List.append_nil] at hmod
  exact (congrArg (littleEndian 6) (toNat_and_macMask destMac)).trans hmod

theorem replicates_replica (source : ActorImage sizes) (inputPortMac outputPortMac : UInt64) {output : Packet}
    (h : output.data = pkt.data) : Replicates source (source.replica inputPortMac outputPortMac) pkt output :=
  ⟨rfl, rfl, dAddr_init _ _ _, rfl, dAddr_init _ _ _, rfl, h⟩

/-- The message is written, and every packet with its bytes is looked up and decoded to a copy of the source. -/
def Reproduced (source : ActorImage sizes) (pkt : Packet) (buffer : Buffer) : Prop :=
  ∃ encoded, replicationOutput source pkt buffer = some encoded ∧
    ∀ arrived : Packet, arrived.data = encoded.data → singleKey arrived = source.flowKey ∧
      ∀ (inputPortMac outputPortMac : UInt64) (buffer' : Buffer), ∃ replica output,
        firstReplication sizes inputPortMac outputPortMac arrived buffer' = some (replica, output) ∧
          Replicates source replica pkt output

/-- For every chain, headers, key, flow states and packet: what is written is decoded to a copy of the source
if and only if it fits into one packet. -/
theorem replication_codec_exact (source : ActorImage sizes) (pkt : Packet) (buffer : Buffer) :
    Reproduced source pkt buffer ↔ Fits sizes pkt := by
  constructor
  · rintro ⟨encoded, hencoded, -⟩
    obtain ⟨fresh, hfresh, -⟩ := Option.bind_eq_some_iff.1 hencoded
    by_contra hlarge
    rw [Fits, ← buffer.size] at hlarge
    rw [Buffer.packet, dif_neg hlarge] at hfresh
    cases hfresh
  · intro hfits
    obtain ⟨encoded, hencoded, hdata⟩ := data_replicationOutput source pkt buffer hfits
    have hroom : Packet.headroom + pkt.dataLen ≤ Packet.headroom + Packet.dataRoom := by
      rw [Fits] at hfits
      omega
    refine ⟨encoded, hencoded, fun arrived harrived ↦ ?_⟩
    refine ⟨singleKey_eq (harrived.trans hdata), fun inputPortMac outputPortMac buffer' ↦ ?_⟩
    obtain ⟨output, houtput, hpacket⟩ :=
      firstReplication_eq (harrived.trans hdata) hroom inputPortMac outputPortMac buffer'
    exact ⟨_, output, houtput, replicates_replica source inputPortMac outputPortMac hpacket⟩

/-- A chain of seven functions with sixty-four bytes of flow state each. -/
def sevenStates : ActorImage (List.replicate 7 64) where
  inputHeader := ⟨1, 2, 3⟩
  outputHeader := ⟨4, 5, 6⟩
  flowKey := List.replicate 16 0
  flowStates := ⟨List.replicate 7 (List.replicate 64 0), by decide⟩
  keySize := rfl

/-- A packet of the full length of an ethernet frame. -/
def fullSizePacket : Packet := Packet.ofBytes Packet.headroom (List.replicate 1514 0)

/-- Its message is fifteen bytes longer than the rest of the buffer. -/
theorem full_size_packet_overruns :
    Packet.headroom + pktMsgOffset + (statesOffset + (List.replicate 7 64).sum + fullSizePacket.dataLen) =
        Packet.headroom + Packet.dataRoom + 15 ∧
      ∀ buffer : Buffer, replicationOutput sevenStates fullSizePacket buffer = none ∧
        ¬Reproduced sevenStates fullSizePacket buffer := by
  have hlen : fullSizePacket.dataLen = 1514 := List.length_replicate
  refine ⟨by rw [hlen]; decide, fun buffer ↦ ?_⟩
  have hlarge : ¬Packet.headroom + pktMsgOffset +
      (statesOffset + (List.replicate 7 64).sum + fullSizePacket.dataLen) ≤ buffer.bytes.length := by
    rw [buffer.size, hlen]
    decide
  have hnone : replicationOutput sevenStates fullSizePacket buffer = none := by
    rw [replicationOutput, Buffer.packet, dif_neg hlarge]
    rfl
  refine ⟨hnone, ?_⟩
  rintro ⟨encoded, hencoded, -⟩
  rw [hnone] at hencoded
  cases hencoded

end NfvActor.Replication
