import Mathlib.Data.List.GetD
import Mathlib.Tactic
import NfvActor.Foundation.ByteMemory
import NfvActor.Reliable.Framing
import NfvActor.Actor.Runtime

/-!
# The keys of a batch

The schedulers sort a batch into data packets, control packets and garbage, and build the keys of the data
packets in one uninitialised array by masked eight byte stores that spill into each other. A key is nonetheless
made of thirteen bytes of its packet only, and `flow_keycmp` compares exactly these.
-/

namespace NfvActor.Reliable

/-- Bytes of a packet buffer, zero behind its end. -/
def Packet.bytesAt (pkt : Packet) (offset width : ℕ) : List UInt8 :=
  (List.range width).map fun index ↦ pkt.bytes.getD (offset + index) 0

variable (pkt : Packet)

theorem Packet.bytesAt_add (offset width more : ℕ) :
    pkt.bytesAt offset (width + more) = pkt.bytesAt offset width ++ pkt.bytesAt (offset + width) more := by
  simp [bytesAt, List.range_add, Nat.add_assoc]

@[simp]
theorem Packet.length_bytesAt (offset width : ℕ) : (pkt.bytesAt offset width).length = width := by
  simp [bytesAt]

theorem Packet.read_succ (offset width : ℕ) :
    pkt.read offset (width + 1) = (pkt.bytes.getD offset 0).toNat + 256 * pkt.read (offset + 1) width := by
  rcases lt_or_ge offset pkt.bytes.length with hinside | houtside
  · rw [read, List.drop_eq_getElem_cons hinside, List.take_succ_cons, List.foldr_cons,
      List.getD_eq_getElem _ _ hinside]
    rfl
  · have hnext : pkt.bytes.length ≤ offset + 1 := by omega
    rw [read, read, List.drop_eq_nil_of_le houtside, List.drop_eq_nil_of_le hnext,
      List.getD_eq_default _ _ houtside, List.take_nil, List.take_nil]
    rfl

/-- The low bytes of a field are the bytes at its start. -/
theorem Packet.littleEndian_read (offset : ℕ) {size width : ℕ} (h : size ≤ width) :
    littleEndian size (pkt.read offset width) = pkt.bytesAt offset size := by
  induction size generalizing offset width with
  | zero => rfl
  | succ size ih =>
    obtain ⟨rest, rfl⟩ : ∃ rest, width = rest + 1 := ⟨width - 1, by omega⟩
    have hrest : pkt.read offset (rest + 1) / 256 = pkt.read (offset + 1) rest := by
      have hbyte := (pkt.bytes.getD offset 0).toNat_lt
      rw [pkt.read_succ]
      omega
    have hbyte : UInt8.ofNat (pkt.read offset (rest + 1)) = pkt.bytes.getD offset 0 := by
      rw [pkt.read_succ]
      apply UInt8.toNat_inj.1
      have := (pkt.bytes.getD offset 0).toNat_lt
      rw [UInt8.toNat_ofNat']
      omega
    rw [littleEndian, hrest, hbyte, ih (offset + 1) (by omega), Nat.add_comm size 1, pkt.bytesAt_add]
    rfl

/-- Masking the low bytes of a word clears the others. -/
theorem littleEndian_mod (size rest value : ℕ) :
    littleEndian (size + rest) (value % 256 ^ size) = littleEndian size value ++ List.replicate rest 0 := by
  induction size generalizing value with
  | zero =>
    rw [pow_zero, Nat.mod_one, Nat.zero_add]
    induction rest with
    | zero => rfl
    | succ _ ih => exact congrArg (List.cons 0) ih
  | succ size ih =>
    have hbyte : UInt8.ofNat (value % 256 ^ (size + 1)) = UInt8.ofNat value := by
      apply UInt8.toNat_inj.1
      rw [UInt8.toNat_ofNat', UInt8.toNat_ofNat', pow_succ']
      exact Nat.mod_mul_right_mod value 256 (256 ^ size)
    have hrest : value % 256 ^ (size + 1) / 256 = value / 256 % 256 ^ size := by
      rw [pow_succ', Nat.mod_mul_right_div_self]
    rw [Nat.add_right_comm, littleEndian, littleEndian, hbyte, hrest, ih, List.cons_append]

/-- Words with the same value have the same bytes. -/
theorem littleEndian_fromLittleEndian (bytes : List UInt8) :
    littleEndian bytes.length (fromLittleEndian bytes) = bytes := by
  induction bytes with
  | nil => rfl
  | cons byte rest ih =>
    have hvalue : fromLittleEndian (byte :: rest) = byte.toNat + 256 * fromLittleEndian rest := rfl
    have hsmall := byte.toNat_lt
    have hbyte : UInt8.ofNat (byte.toNat + 256 * fromLittleEndian rest) = byte := by
      apply UInt8.toNat_inj.1
      rw [UInt8.toNat_ofNat']
      omega
    have hrest : (byte.toNat + 256 * fromLittleEndian rest) / 256 = fromLittleEndian rest := by omega
    rw [List.length_cons, littleEndian, hvalue, hbyte, hrest, ih]

end NfvActor.Reliable

namespace NfvActor.Actor

open NfvActor.Foundation
open NfvActor.Reliable (Packet littleEndian fromLittleEndian)

/-- The three destinations of the packets of a batch, in order. -/
structure SortedBatch where
  collected : List Packet
  cpPktBatch : List Packet
  dpPktBatch : List Packet

/-- The `uint16_t` at the offset, masked. -/
def maskedHalf (pkt : Packet) (offset mask : ℕ) : ℕ := pkt.read offset 2 &&& mask

/-- One iteration of the first loop of `ProcessBatch`. -/
def sortPacket (sorted : SortedBatch) (pkt : Packet) : SortedBatch :=
  if maskedHalf pkt 14 0x00f0 ≠ 0x0040 ∨ maskedHalf pkt 23 0x00ff ≠ 0x0006 ∧
      maskedHalf pkt 23 0x00ff ≠ 0x0011 ∧ maskedHalf pkt 23 0x00ff ≠ 0x00FF then
    { sorted with collected := sorted.collected ++ [pkt] }
  else if maskedHalf pkt 23 0x00ff = 0x00FF then
    { sorted with cpPktBatch := sorted.cpPktBatch ++ [pkt] }
  else
    { sorted with dpPktBatch := sorted.dpPktBatch ++ [pkt] }

/-- The first loop of `ProcessBatch`. -/
def sortBatch (batch : List Packet) : SortedBatch :=
  batch.foldl sortPacket ⟨[], [], []⟩

/-- `nfa_ipv4_field`. -/
structure NfaIpv4Field where
  pos : ℕ
  offset : ℕ
  size : ℕ
  mask : UInt64
deriving DecidableEq, Repr

/-- `nfa_init_ipv4_field`: the protocol, the two addresses, the two ports. -/
def nfaInitIpv4Field : List NfaIpv4Field :=
  [⟨0, 23, 1, ((1 : UInt64) <<< 8) - 1⟩, ⟨1, 26, 8, 0xffffffffffffffff⟩,
    ⟨9, 34, 4, ((1 : UInt64) <<< 32) - 1⟩]

def flowKeySize : ℕ := 16

/-- One field of a key. -/
def storeField (pkt : Packet) (key : ℕ) (keys : ByteMemory) (field : NfaIpv4Field) : ByteMemory :=
  keys.store (key + field.pos)
    (littleEndian 8 (UInt64.ofNat (pkt.read field.offset 8) &&& field.mask).toNat)

/-- Key number `i` of the array: the `memset` and the loop over the fields. -/
def buildKey (fields : List NfaIpv4Field) (pkt : Packet) (i : ℕ) (keys : ByteMemory) : ByteMemory :=
  fields.foldl (storeField pkt (flowKeySize * i))
    (keys.store (flowKeySize * i + (flowKeySize - 8)) (List.replicate 8 0))

/-- The keys as they are looked up, packet by packet from number `i` on. -/
def lookupKeys (fields : List NfaIpv4Field) : List Packet → ℕ → ByteMemory → List FlowKey
  | [], _, _ => []
  | pkt :: rest, i, keys =>
    let keys := buildKey fields pkt i keys
    keys.load (flowKeySize * i) flowKeySize :: lookupKeys fields rest (i + 1) keys

/-- The keys that `forward_ec_scheduler::ProcessBatch` looks up. -/
def forwardEcSchedulerKeys (batch : List Packet) (keys : ByteMemory) : List FlowKey :=
  lookupKeys nfaInitIpv4Field (sortBatch batch).dpPktBatch 0 keys

/-- The keys that `reverse_ec_scheduler::ProcessBatch` looks up. -/
def reverseEcSchedulerKeys (batch : List Packet) (keys : ByteMemory) : List FlowKey :=
  lookupKeys nfaInitIpv4Field (sortBatch batch).dpPktBatch 0 keys

/-- `field[index]` of a key. -/
def keyField (key : FlowKey) (index : ℕ) : ℕ := fromLittleEndian ((key.drop (8 * index)).take 8)

/-- The cases of the `switch` from the given one on. -/
def compareFields (key keyStored : FlowKey) : ℕ → ℕ
  | 0 => 0
  | index + 1 =>
    if keyField key index ≠ keyField keyStored index then 1 else compareFields key keyStored index

/-- `flow_keycmp`; a length without a case is promised not to occur. -/
def flowKeycmp (key keyStored : FlowKey) (keyLen : ℕ) : Option ℕ :=
  if 1 ≤ keyLen >>> 3 ∧ keyLen >>> 3 ≤ 8 then some (compareFields key keyStored (keyLen >>> 3)) else none

variable {key keyStored : FlowKey} (pkt : Packet) {field : NfaIpv4Field}

theorem keyField_inj {index : ℕ} (hlength : key.length = keyStored.length)
    (h : keyField key index = keyField keyStored index) :
    (key.drop (8 * index)).take 8 = (keyStored.drop (8 * index)).take 8 := by
  have hbytes := Reliable.littleEndian_fromLittleEndian ((key.drop (8 * index)).take 8)
  have hbytes' := Reliable.littleEndian_fromLittleEndian ((keyStored.drop (8 * index)).take 8)
  have hwidth : ((key.drop (8 * index)).take 8).length = ((keyStored.drop (8 * index)).take 8).length := by
    simp only [List.length_take, List.length_drop, hlength]
  unfold keyField at h
  rw [← hbytes, ← hbytes', hwidth, h]

theorem compareFields_eq_zero_iff (hlength : key.length = keyStored.length) (index : ℕ) :
    compareFields key keyStored index = 0 ↔ key.take (8 * index) = keyStored.take (8 * index) := by
  induction index with
  | zero => simp [compareFields]
  | succ index ih =>
    rw [compareFields, Nat.mul_succ, List.take_add, List.take_add]
    constructor
    · intro h
      split at h
      · exact absurd h one_ne_zero
      · next hfield => rw [ih.1 h, keyField_inj hlength (not_not.1 hfield)]
    · intro h
      have hfronts : (key.take (8 * index)).length = (keyStored.take (8 * index)).length := by
        rw [List.length_take, List.length_take, hlength]
      obtain ⟨hfront, hfield⟩ := List.append_inj h hfronts
      have hequal : keyField key index = keyField keyStored index := congrArg fromLittleEndian hfield
      rw [if_neg (not_not.2 hequal), ih.2 hfront]

/-- Keys of the full size compare equal when they have the same bytes. -/
theorem flowKeycmp_eq_zero_iff (h : key.length = flowKeySize) (h' : keyStored.length = flowKeySize) :
    flowKeycmp key keyStored flowKeySize = some 0 ↔ key = keyStored := by
  rw [flowKeycmp, if_pos (by decide), Option.some_inj, compareFields_eq_zero_iff (h.trans h'.symm),
    List.take_of_length_le (by rw [h]; decide), List.take_of_length_le (by rw [h']; decide)]

/-- The bytes that identify a flow: byte 23 and bytes 26 to 37. -/
def flowBytes (pkt : Packet) : List UInt8 := pkt.bytesAt 23 1 ++ pkt.bytesAt 26 12

/-- The mask of a field keeps its low `size` bytes. -/
def NfaIpv4Field.Exact (field : NfaIpv4Field) : Prop :=
  field.size ≤ 8 ∧ field.mask.toNat = 2 ^ (8 * field.size) - 1

theorem exact_of_mem (h : field ∈ nfaInitIpv4Field) : field.Exact := by
  simp only [nfaInitIpv4Field, List.mem_cons, List.not_mem_nil, or_false] at h
  rcases h with rfl | rfl | rfl
  · exact ⟨by decide, by decide⟩
  · exact ⟨by decide, by decide⟩
  · exact ⟨by decide, by decide⟩

/-- The eight bytes that are stored for a field. -/
theorem NfaIpv4Field.Exact.bytes (h : field.Exact) (pkt : Packet) :
    littleEndian 8 (UInt64.ofNat (pkt.read field.offset 8) &&& field.mask).toNat =
      pkt.bytesAt field.offset field.size ++ List.replicate (8 - field.size) 0 := by
  obtain ⟨hsize, hmask⟩ := h
  have hdvd : 2 ^ (8 * field.size) ∣ 2 ^ 64 := pow_dvd_pow 2 (by omega)
  have hvalue : (UInt64.ofNat (pkt.read field.offset 8) &&& field.mask).toNat =
      pkt.read field.offset 8 % 256 ^ field.size := by
    rw [UInt64.toNat_and, hmask, Nat.and_two_pow_sub_one_eq_mod, UInt64.toNat_ofNat',
      Nat.mod_mod_of_dvd _ hdvd, pow_mul]
    rfl
  have hwidth : 8 = field.size + (8 - field.size) := by omega
  calc littleEndian 8 (UInt64.ofNat (pkt.read field.offset 8) &&& field.mask).toNat
      = littleEndian (field.size + (8 - field.size)) (pkt.read field.offset 8 % 256 ^ field.size) := by
        rw [hvalue, ← hwidth]
    _ = littleEndian field.size (pkt.read field.offset 8) ++ List.replicate (8 - field.size) 0 :=
        Reliable.littleEndian_mod _ _ _
    _ = pkt.bytesAt field.offset field.size ++ List.replicate (8 - field.size) 0 := by
        rw [pkt.littleEndian_read _ hsize]

/-- Of three words stored over each other the first keeps one byte and the second all. -/
theorem load_three_words (memory : ByteMemory) (address : ℕ) {first second third : List UInt8}
    (hfirst : first.length = 8) (hsecond : second.length = 8) (hthird : third.length = 8) :
    (((memory.store address first).store (address + 1) second).store (address + 9) third).load address
        flowKeySize = first.take 1 ++ second ++ third.take 7 := by
  rw [show flowKeySize = 1 + 8 + 7 from rfl, ByteMemory.load_add, ByteMemory.load_add]
  congr 1
  · congr 1
    · rw [ByteMemory.load_store_behind _ _ (by omega), ByteMemory.load_store_behind _ _ (by omega),
        ByteMemory.load_store_self _ _ (by omega)]
    · rw [ByteMemory.load_store_behind _ _ (by omega), ByteMemory.load_store_self _ _ (by omega),
        List.take_of_length_le (by omega)]
  · exact ByteMemory.load_store_self _ _ (by omega)

/-- A key depends neither on its place nor on what the array held before. -/
theorem load_buildKey (i : ℕ) (keys : ByteMemory) :
    (buildKey nfaInitIpv4Field pkt i keys).load (flowKeySize * i) flowKeySize =
      flowBytes pkt ++ [0, 0, 0] := by
  have hexact (field : NfaIpv4Field) (h : field ∈ nfaInitIpv4Field) := (exact_of_mem h).bytes pkt
  simp only [nfaInitIpv4Field, List.forall_mem_cons, List.not_mem_nil, false_implies, implies_true,
    and_true] at hexact
  obtain ⟨hprotocol, haddresses, hports⟩ := hexact
  simp only [buildKey, nfaInitIpv4Field, List.foldl_cons, List.foldl_nil, storeField, Nat.add_zero]
  rw [load_three_words _ _ (by simp) (by simp) (by simp), hprotocol, haddresses, hports, flowBytes,
    show 12 = 8 + 4 from rfl, pkt.bytesAt_add]
  rfl

theorem lookupKeys_eq (batch : List Packet) (i : ℕ) (keys : ByteMemory) :
    lookupKeys nfaInitIpv4Field batch i keys = batch.map fun pkt ↦ flowBytes pkt ++ [0, 0, 0] := by
  induction batch generalizing i keys with
  | nil => rfl
  | cons _ _ ih => rw [lookupKeys, load_buildKey, ih, List.map_cons]

/-- The key that the runtime model looks up is the one that is built. -/
theorem flowKeyOf_eq : flowKeyOf pkt = flowBytes pkt ++ [0, 0, 0] := by
  rw [flowKeyOf, pkt.littleEndian_read _ le_rfl, pkt.littleEndian_read _ le_rfl,
    pkt.littleEndian_read _ le_rfl, flowBytes, show 12 = 8 + 4 from rfl, pkt.bytesAt_add, ← List.append_assoc]

/-- The two modules that schedule packets. -/
inductive EcScheduler
  | forward
  | reverse
deriving DecidableEq, Repr

/-- The keys that a scheduler looks up for a batch. -/
def EcScheduler.lookups : EcScheduler → List Packet → ByteMemory → List FlowKey
  | forward => forwardEcSchedulerKeys
  | reverse => reverseEcSchedulerKeys

theorem EcScheduler.lookups_eq (scheduler : EcScheduler) (batch : List Packet) (keys : ByteMemory) :
    scheduler.lookups batch keys = (sortBatch batch).dpPktBatch.map fun pkt ↦ flowBytes pkt ++ [0, 0, 0] := by
  cases scheduler with
  | forward => exact lookupKeys_eq _ _ _
  | reverse => exact lookupKeys_eq _ _ _

theorem length_flowBytes : (flowBytes pkt).length = 13 := by
  simp [flowBytes]

/-- Whatever the array held, the key of a data packet is its thirteen bytes and three zeroes, and two keys from
any two batches are equal exactly when the thirteen bytes are. -/
theorem flow_keys_identify_flows (scheduler scheduler' : EcScheduler) (batch batch' : List Packet)
    (keys keys' : ByteMemory) {i i' : ℕ} {pkt pkt' : Packet}
    (hpkt : (sortBatch batch).dpPktBatch[i]? = some pkt)
    (hpkt' : (sortBatch batch').dpPktBatch[i']? = some pkt') :
    ∃ key key', (scheduler.lookups batch keys)[i]? = some key ∧
      (scheduler'.lookups batch' keys')[i']? = some key' ∧
      key = flowBytes pkt ++ [0, 0, 0] ∧ flowKeyOf pkt = key ∧
      (flowKeycmp key key' flowKeySize = some 0 ↔ flowBytes pkt = flowBytes pkt') := by
  have hsize (pkt : Packet) : (flowBytes pkt ++ [0, 0, 0]).length = flowKeySize := by
    rw [List.length_append, length_flowBytes]
    rfl
  refine ⟨flowBytes pkt ++ [0, 0, 0], flowBytes pkt' ++ [0, 0, 0], ?_, ?_, rfl, flowKeyOf_eq pkt, ?_⟩
  · rw [scheduler.lookups_eq, List.getElem?_map, hpkt, Option.map_some]
  · rw [scheduler'.lookups_eq, List.getElem?_map, hpkt', Option.map_some]
  · rw [flowKeycmp_eq_zero_iff (hsize pkt) (hsize pkt')]
    exact List.append_left_inj _

/-- A TCP packet with the given first byte of its source port. -/
def portPacket (port : UInt8) : Packet :=
  .ofBytes 128 (List.replicate 14 0 ++ [0x45] ++ List.replicate 8 0 ++ [0x06, 0, 0, 10, 0, 0, 1, 10, 0, 0, 2] ++
    [port, 0, 80, 0] ++ List.replicate 8 0xAB)

/-- Two ports give two keys: one forward over an array of ones, one in reverse behind a collected packet. -/
theorem flow_keys_identify_flows_ports :
    ∃ key key', (EcScheduler.forward.lookups [portPacket 1] fun _ ↦ 0xFF)[0]? = some key ∧
      (EcScheduler.reverse.lookups [.ofBytes 128 [], portPacket 2] fun _ ↦ 0)[0]? = some key' ∧
      flowKeycmp key key' flowKeySize ≠ some 0 := by
  obtain ⟨key, key', hkey, hkey', -, -, hequal⟩ := flow_keys_identify_flows .forward .reverse [portPacket 1]
    [.ofBytes 128 [], portPacket 2] (fun _ ↦ 0xFF) (fun _ ↦ 0)
    (show (sortBatch [portPacket 1]).dpPktBatch[0]? = some (portPacket 1) by decide +kernel)
    (show (sortBatch [.ofBytes 128 [], portPacket 2]).dpPktBatch[0]? = some (portPacket 2) by decide +kernel)
  exact ⟨key, key', hkey, hkey', fun hzero ↦ absurd (hequal.1 hzero) (by decide +kernel)⟩

end NfvActor.Actor
