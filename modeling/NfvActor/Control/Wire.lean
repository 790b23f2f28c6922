import Mathlib.Tactic
import NfvActor.Reliable.Framing

/-!
# Runtime configurations on the wire

A runtime describes itself by a protobuf message in which MAC and IP addresses are texts, written with `sprintf`
and read back with `sscanf` or a `stringstream`. Plain `char` is signed, so a byte of a MAC address from `0x80`
on is printed with eight digits, which neither fits the buffer nor is read back.
-/

namespace NfvActor.Control

open NfvActor.Reliable (littleEndian fromLittleEndian)

/-- `runtime_config`. -/
structure RuntimeConfig where
  runtimeId : Int32
  inputPortMac : UInt64
  outputPortMac : UInt64
  controlPortMac : UInt64
  rpcIp : UInt32
  rpcPort : Int32
deriving DecidableEq, Repr

/-- The protobuf message `RuntimeConfig`. -/
structure ConfigMessage where
  runtimeId : Int32
  inputPortMac : List Char
  outputPortMac : List Char
  controlPortMac : List Char
  rpcIp : List Char
  rpcPort : Int32
deriving DecidableEq, Repr

/-- The bytes of a MAC address as they lie in memory. -/
def macBytes (mac : UInt64) : List UInt8 := littleEndian 6 mac.toNat

/-- A signed `char` promoted to `int`, read as the `unsigned int` that `%x` prints. -/
def promote (byte : UInt8) : ℕ := if byte < 0x80 then byte.toNat else 2 ^ 32 - 256 + byte.toNat

/-- The conversion `%02x`. -/
def hexText (value : ℕ) : List Char :=
  let digits := Nat.toDigits 16 value
  List.replicate (2 - digits.length) '0' ++ digits

/-- What `sprintf` writes for a MAC address. -/
def macText (mac : UInt64) : List Char :=
  [':'].intercalate ((macBytes mac).map fun byte ↦ hexText (promote byte))

/-- The size of `str`, with room for the terminating null character. -/
def macBufferSize : ℕ := 19

/-- `convert_uint64t_mac`; a text that is too long overflows the buffer. -/
def convertUint64tMac (mac : UInt64) : Option (List Char) :=
  let text := macText mac
  if text.length + 1 ≤ macBufferSize then some text else none

def convertUint32tIp (ip : UInt32) : List Char :=
  let a := (ip >>> 24) &&& 0x000000FF
  let b := (ip >>> 16) &&& 0x000000FF
  let c := (ip >>> 8) &&& 0x000000FF
  let d := ip &&& 0x000000FF
  Nat.toDigits 10 a.toNat ++ '.' :: Nat.toDigits 10 b.toNat ++ '.' :: Nat.toDigits 10 c.toNat ++
    '.' :: Nat.toDigits 10 d.toNat

def local2protobuf (config : RuntimeConfig) : Option ConfigMessage := do
  let inputPortMac ← convertUint64tMac config.inputPortMac
  let outputPortMac ← convertUint64tMac config.outputPortMac
  let controlPortMac ← convertUint64tMac config.controlPortMac
  some ⟨config.runtimeId, inputPortMac, outputPortMac, controlPortMac, convertUint32tIp config.rpcIp,
    config.rpcPort⟩

/-- `isspace` in the C locale. -/
def isSpace (char : Char) : Bool := char ∈ [' ', '\t', '\n', '\x0b', '\x0c', '\x0d']

/-- The value of a hexadecimal digit. -/
def hexDigit (char : Char) : Option ℕ :=
  if '0' ≤ char ∧ char ≤ '9' then some (char.toNat - '0'.toNat)
  else if 'a' ≤ char ∧ char ≤ 'f' then some (char.toNat - 'a'.toNat + 10)
  else if 'A' ≤ char ∧ char ≤ 'F' then some (char.toNat - 'A'.toNat + 10)
  else none

/-- `%2hhx` of `sscanf`: blanks are skipped, and at most two characters are a sign or digits. `0x` takes both
and leaves no digit. -/
def scanHexByte (text : List Char) : Option (UInt8 × List Char) :=
  match text.dropWhile isSpace with
  | [] => none
  | [first] => (hexDigit first).map fun value ↦ (UInt8.ofNat value, [])
  | first :: second :: rest =>
    if first = '+' then
      (hexDigit second).map fun value ↦ (UInt8.ofNat value, rest)
    else if first = '-' then
      (hexDigit second).map fun value ↦ (0 - UInt8.ofNat value, rest)
    else if first = '0' ∧ (second = 'x' ∨ second = 'X') then
      none
    else
      (hexDigit first).map fun high ↦
        match hexDigit second with
        | some low => (UInt8.ofNat (16 * high + low), rest)
        | none => (UInt8.ofNat high, second :: rest)

/-- The bytes that `ring_msg_parse_mac_addr` assigns until it fails. -/
def scanMac : ℕ → List Char → List UInt8
  | 0, _ => []
  | count + 1, text =>
    match scanHexByte text with
    | none => []
    | some (byte, ':' :: rest) => byte :: scanMac count rest
    | some (byte, _) => [byte]

/-- `ring_msg_parse_mac_addr`. Its result is ignored: other bytes keep what the array held. -/
def ringMsgParseMacAddr (text : List Char) (addr : List UInt8) : List UInt8 :=
  let assigned := scanMac 6 text
  assigned ++ addr.drop assigned.length

/-- `convert_string_mac`. The two bytes that `l2_addr_to_u64` reads past the array are masked. -/
def convertStringMac (stale : List UInt8) (mac : List Char) : UInt64 :=
  UInt64.ofNat (fromLittleEndian ((ringMsgParseMacAddr mac stale).take 6))

/-- `operator>>` for an `unsigned int`: the value assigned, and the rest unless it fails. -/
def extractUint32 (text : List Char) : UInt32 × Option (List Char) :=
  let text := text.dropWhile isSpace
  let negative := text.head? = some '-'
  let text := if text.head? = some '+' ∨ negative then text.tail else text
  let digits := text.takeWhile Char.isDigit
  let value := digits.foldl (fun value digit ↦ 10 * value + (digit.toNat - '0'.toNat)) 0
  if digits = [] then
    (0, none)
  else if 2 ^ 32 ≤ value then
    (0xFFFFFFFF, none)
  else
    (if negative then 0 - UInt32.ofNat value else UInt32.ofNat value, some (text.drop digits.length))

/-- `operator>>` for a `char`. -/
def extractChar (text : List Char) : Option (List Char) :=
  match text.dropWhile isSpace with
  | [] => none
  | _ :: rest => some rest

/-- `ss >> a >> ch >> b >> …`: after a failure the other variables keep what they held. -/
def extractFields : List UInt32 → List Char → List UInt32
  | [], _ => []
  | _ :: others, text =>
    match extractUint32 text with
    | (value, none) => value :: others
    | (value, some rest) =>
      match extractChar rest with
      | none => value :: others
      | some rest => value :: extractFields others rest

/-- `convert_string_ip`, with what `a`, `b`, `c` and `d` held before. -/
def convertStringIp (stale : List UInt32) (ip : List Char) : UInt32 :=
  let fields := extractFields stale ip
  let a := fields.getD 0 0
  let b := fields.getD 1 0
  let c := fields.getD 2 0
  let d := fields.getD 3 0
  ((a <<< (24 : UInt32)) &&& 0xFF000000) ||| ((b <<< (16 : UInt32)) &&& 0x00FF0000) |||
    ((c <<< (8 : UInt32)) &&& 0x0000FF00) ||| (d &&& 0x000000FF)

/-- The uninitialised locals of the reading functions. -/
structure Stale where
  inputMac : List UInt8
  outputMac : List UInt8
  controlMac : List UInt8
  ipFields : List UInt32
  fourFields : ipFields.length = 4

def protobuf2local (stale : Stale) (message : ConfigMessage) : RuntimeConfig :=
  { runtimeId := message.runtimeId
    inputPortMac := convertStringMac stale.inputMac message.inputPortMac
    outputPortMac := convertStringMac stale.outputMac message.outputPortMac
    controlPortMac := convertStringMac stale.controlMac message.controlPortMac
    rpcIp := convertStringIp stale.ipFields message.rpcIp
    rpcPort := message.rpcPort }

theorem hexDigit_digitChar : ∀ digit < 16, hexDigit (Nat.digitChar digit) = some digit ∧
    isSpace (Nat.digitChar digit) = false ∧ Nat.digitChar digit ∉ ['+', '-', 'x', 'X'] := by
  decide

theorem hexText_promote : ∀ byte < 128, hexText (promote (UInt8.ofNat byte)) =
    [Nat.digitChar (byte / 16), Nat.digitChar (byte % 16)] := by
  decide +kernel

theorem length_hexText_promote : ∀ byte < 256, (hexText (promote (UInt8.ofNat byte))).length =
    if byte < 128 then 2 else 8 := by
  decide +kernel

/-- A byte below `0x80` is read back from its text. -/
theorem scanHexByte_hexText {byte : UInt8} (hbyte : byte < 0x80) (rest : List Char) :
    scanHexByte (hexText (promote byte) ++ rest) = some (byte, rest) := by
  have hlt : byte.toNat < 128 := hbyte
  obtain ⟨hhigh, hspace, hplain⟩ := hexDigit_digitChar (byte.toNat / 16) (by omega)
  obtain ⟨hlow, -, hmark⟩ := hexDigit_digitChar (byte.toNat % 16) (by omega)
  have htext := hexText_promote byte.toNat hlt
  rw [UInt8.ofNat_toNat] at htext
  simp only [List.mem_cons, List.not_mem_nil, or_false, not_or] at hplain hmark
  have hvalue : UInt8.ofNat (16 * (byte.toNat / 16) + byte.toNat % 16) = byte := by
    rw [Nat.div_add_mod, UInt8.ofNat_toNat]
  simpa [htext, scanHexByte, hspace, hplain, hmark, hhigh, hlow] using hvalue

/-- The texts of bytes below `0x80` are read back, one after the other. -/
theorem scanMac_intercalate {bytes : List UInt8} (hbytes : ∀ byte ∈ bytes, byte < 0x80) :
    scanMac bytes.length ([':'].intercalate (bytes.map fun byte ↦ hexText (promote byte))) = bytes := by
  induction bytes with
  | nil => rfl
  | cons byte bytes ih =>
    have hbyte := hbytes byte (List.mem_cons_self ..)
    cases bytes with
    | nil =>
      have hscan := scanHexByte_hexText hbyte []
      rw [List.append_nil] at hscan
      simp [List.intercalate, scanMac, hscan]
    | cons next bytes =>
      have hrest := ih fun other hother ↦ hbytes other (List.mem_cons_of_mem _ hother)
      have hscan := scanHexByte_hexText hbyte
        (':' :: [':'].intercalate ((next :: bytes).map fun byte ↦ hexText (promote byte)))
      have hsplit : [':'].intercalate ((byte :: next :: bytes).map fun byte ↦ hexText (promote byte)) =
          hexText (promote byte) ++
            ':' :: [':'].intercalate ((next :: bytes).map fun byte ↦ hexText (promote byte)) := by
        simp [List.intercalate]
      rw [hsplit, List.length_cons, scanMac, hscan]
      exact congrArg (byte :: ·) hrest

/-- Every byte takes two digits and a separator, and six digits more from `0x80` on. -/
theorem length_intercalate {bytes : List UInt8} (hbytes : bytes ≠ []) :
    ([':'].intercalate (bytes.map fun byte ↦ hexText (promote byte))).length + 1 =
      3 * bytes.length + 6 * bytes.countP (0x80 ≤ ·) := by
  have hlength (byte : UInt8) : (hexText (promote byte)).length = 2 + if 0x80 ≤ byte then 6 else 0 := by
    have h := length_hexText_promote byte.toNat byte.toNat_lt
    rw [UInt8.ofNat_toNat] at h
    have hwide : 0x80 ≤ byte ↔ 128 ≤ byte.toNat := UInt8.le_iff_toNat_le
    simp only [h, hwide]
    split_ifs <;> omega
  induction bytes with
  | nil => exact absurd rfl hbytes
  | cons byte bytes ih =>
    cases bytes with
    | nil =>
      simp only [List.intercalate, List.map_cons, List.map_nil, List.intersperse_singleton,
        List.flatten_singleton, hlength, List.countP_cons, List.countP_nil, List.length_singleton,
        decide_eq_true_eq]
      split_ifs <;> rfl
    | cons =>
      have hrest := ih (List.cons_ne_nil _ _)
      simp only [List.intercalate, List.map_cons, List.intersperse_cons_cons, List.flatten_cons,
        List.length_append, hlength byte, List.length_cons, List.length_nil,
        List.countP_cons (a := byte), decide_eq_true_eq] at hrest ⊢
      split_ifs <;> omega

theorem length_macText (mac : UInt64) :
    (macText mac).length + 1 ≤ macBufferSize ↔ ∀ byte ∈ macBytes mac, byte < 0x80 := by
  have hsix : (macBytes mac).length = 6 := NfvActor.Reliable.length_littleEndian 6 mac.toNat
  have hlength : (macText mac).length + 1 = 18 + 6 * (macBytes mac).countP (0x80 ≤ ·) := by
    rw [macText, length_intercalate (List.ne_nil_of_length_pos (by omega)), hsix]
  have hwide : (macBytes mac).countP (0x80 ≤ ·) = 0 ↔ ∀ byte ∈ macBytes mac, byte < 0x80 := by
    simp [List.countP_eq_zero, UInt8.not_le]
  rw [hlength, macBufferSize, ← hwide]
  omega

theorem convertStringMac_macText {mac : UInt64} (hmac : mac.toNat < 2 ^ 48)
    (hbytes : ∀ byte ∈ macBytes mac, byte < 0x80) (stale : List UInt8) :
    convertStringMac stale (macText mac) = mac := by
  have hscan := scanMac_intercalate hbytes
  have hsix : (macBytes mac).length = 6 := NfvActor.Reliable.length_littleEndian 6 mac.toNat
  rw [hsix] at hscan
  have hvalue := NfvActor.Reliable.fromLittleEndian_littleEndian 6 mac.toNat
  rw [Nat.mod_eq_of_lt (by simpa using hmac)] at hvalue
  rw [convertStringMac, ringMsgParseMacAddr, macText, hscan, List.take_append_of_le_length hsix.ge,
    List.take_of_length_le hsix.le, macBytes, hvalue, UInt64.ofNat_toNat]

/-! ## IP addresses -/

theorem toDigits_ten : ∀ field < 256, (Nat.toDigits 10 field).all Char.isDigit ∧ Nat.toDigits 10 field ≠ [] ∧
    (Nat.toDigits 10 field).foldl (fun value digit ↦ 10 * value + (digit.toNat - '0'.toNat)) 0 = field := by
  decide +kernel

theorem isSpace_of_isDigit {char : Char} (hdigit : char.isDigit) : isSpace char = false := by
  rw [isSpace, decide_eq_false_iff_not]
  intro hmem
  simp only [List.mem_cons, List.not_mem_nil, or_false] at hmem
  rcases hmem with rfl | rfl | rfl | rfl | rfl | rfl <;> exact absurd hdigit (by decide)

/-- The characters that may follow a field of an IP address. -/
def EndsField (rest : List Char) : Prop := ∀ char ∈ rest.head?, char.isDigit = false

variable {field : ℕ}

theorem extractUint32_toDigits (hfield : field < 256) {rest : List Char} (hrest : EndsField rest) :
    extractUint32 (Nat.toDigits 10 field ++ rest) = (UInt32.ofNat field, some rest) := by
  obtain ⟨hdigits, hne, hvalue⟩ := toDigits_ten field hfield
  rw [List.all_eq_true] at hdigits
  obtain ⟨first, others, htext⟩ := List.exists_cons_of_ne_nil hne
  have hfirst := hdigits first (by rw [htext]; exact List.mem_cons_self ..)
  have hspace : isSpace first = false := isSpace_of_isDigit hfirst
  have hsign : first ≠ '+' ∧ first ≠ '-' := by
    constructor <;> rintro rfl <;> exact absurd hfirst (by decide)
  have htake : (Nat.toDigits 10 field ++ rest).takeWhile Char.isDigit = Nat.toDigits 10 field := by
    rw [List.takeWhile_append_of_pos hdigits]
    cases rest with
    | nil => simp
    | cons char => simp [hrest char rfl]
  have hdrop : (Nat.toDigits 10 field ++ rest).dropWhile isSpace = Nat.toDigits 10 field ++ rest := by
    rw [htext, List.cons_append, List.dropWhile_cons_of_neg (by simp [hspace])]
  have hhead : (Nat.toDigits 10 field ++ rest).head? = some first := by rw [htext]; rfl
  simp only [extractUint32, hdrop, hhead, Option.some.injEq, hsign.1, hsign.2, or_self, if_false, htake,
    hvalue, hne, List.drop_left, show ¬ 2 ^ 32 ≤ field by omega]

theorem extractFields_toDigits (hfield : field < 256) (stale : UInt32) (others : List UInt32)
    (rest : List Char) :
    extractFields (stale :: others) (Nat.toDigits 10 field ++ '.' :: rest) =
      UInt32.ofNat field :: extractFields others rest := by
  have hends : EndsField ('.' :: rest) := by
    rintro _ ⟨⟩
    rfl
  rw [extractFields, extractUint32_toDigits hfield hends]
  rfl

theorem extractFields_last (hfield : field < 256) (stale : UInt32) :
    extractFields [stale] (Nat.toDigits 10 field) = [UInt32.ofNat field] := by
  have hends : EndsField [] := by
    rintro _ ⟨⟩
  have hlast := extractUint32_toDigits hfield hends
  rw [List.append_nil] at hlast
  rw [extractFields, hlast]
  rfl

theorem join_fields (ip a b c d : UInt32) (ha : a = (ip >>> 24) &&& 0x000000FF)
    (hb : b = (ip >>> 16) &&& 0x000000FF) (hc : c = (ip >>> 8) &&& 0x000000FF) (hd : d = ip &&& 0x000000FF) :
    ((a <<< (24 : UInt32)) &&& 0xFF000000) ||| ((b <<< (16 : UInt32)) &&& 0x00FF0000) |||
      ((c <<< (8 : UInt32)) &&& 0x0000FF00) ||| (d &&& 0x000000FF) = ip := by
  subst ha hb hc hd
  apply UInt32.toBitVec_inj.1
  ext i hi
  interval_cases i <;> simp

/-- Every IP address is read back from its text. -/
theorem convertStringIp_convertUint32tIp {stale : List UInt32} (hstale : stale.length = 4) (ip : UInt32) :
    convertStringIp stale (convertUint32tIp ip) = ip := by
  obtain ⟨a, b, c, d, rfl⟩ := List.length_eq_four.1 hstale
  have hfield (value : UInt32) : (value &&& 0x000000FF).toNat < 256 := by
    rw [UInt32.toNat_and]
    exact Nat.lt_of_le_of_lt Nat.and_le_right (by decide)
  have hfields : extractFields [a, b, c, d] (convertUint32tIp ip) =
      [(ip >>> 24) &&& 0x000000FF, (ip >>> 16) &&& 0x000000FF, (ip >>> 8) &&& 0x000000FF,
        ip &&& 0x000000FF] := by
    simp only [convertUint32tIp, List.append_assoc, List.cons_append, extractFields_toDigits (hfield _),
      extractFields_last (hfield _), UInt32.ofNat_toNat]
  rw [convertStringIp, hfields]
  exact join_fields ip _ _ _ _ rfl rfl rfl rfl

theorem convertUint64tMac_eq_some {mac : UInt64} {text : List Char} :
    convertUint64tMac mac = some text ↔ (∀ byte ∈ macBytes mac, byte < 0x80) ∧ macText mac = text := by
  rw [convertUint64tMac]
  split_ifs with hfits
  · exact ⟨fun htext ↦ ⟨(length_macText mac).1 hfits, Option.some.inj htext⟩, fun h ↦ congrArg some h.2⟩
  · simp [mt (length_macText mac).2 hfits]

/-- The MAC addresses have 48 bits, and no byte has its top bit set. -/
def RuntimeConfig.Portable (config : RuntimeConfig) : Prop :=
  ∀ mac ∈ [config.inputPortMac, config.outputPortMac, config.controlPortMac],
    mac.toNat < 2 ^ 48 ∧ ∀ byte ∈ macBytes mac, byte < 0x80

instance (config : RuntimeConfig) : Decidable config.Portable :=
  decidable_of_iff ([config.inputPortMac, config.outputPortMac, config.controlPortMac].all fun mac ↦
    decide (mac.toNat < 2 ^ 48) && (macBytes mac).all fun byte ↦ decide (byte < 0x80)) (by
      simp only [RuntimeConfig.Portable, List.all_eq_true, Bool.and_eq_true, decide_eq_true_eq])

theorem RuntimeConfig.Portable.read_back {config : RuntimeConfig} (hportable : config.Portable) (stale : Stale) :
    (local2protobuf config).map (protobuf2local stale) = some config := by
  simp only [Portable, List.forall_mem_cons, List.not_mem_nil, false_imp_iff, implies_true, and_true]
    at hportable
  obtain ⟨⟨hinput, hin⟩, ⟨houtput, hout⟩, hcontrol, hctl⟩ := hportable
  have htext {mac : UInt64} (hbytes : ∀ byte ∈ macBytes mac, byte < 0x80) :
      convertUint64tMac mac = some (macText mac) := convertUint64tMac_eq_some.2 ⟨hbytes, rfl⟩
  simp only [local2protobuf, htext hin, htext hout, htext hctl, Option.bind_eq_bind, Option.bind_some,
    Option.map_some, protobuf2local, convertStringMac_macText hinput hin,
    convertStringMac_macText houtput hout, convertStringMac_macText hcontrol hctl,
    convertStringIp_convertUint32tIp stale.fourFields]

/-- A configuration fits its message and is read back unchanged if and only if no byte of its MAC addresses has
its top bit set. -/
theorem runtimeConfig_survives_wire_iff (stale : Stale) (config : RuntimeConfig)
    (hinput : config.inputPortMac.toNat < 2 ^ 48) (houtput : config.outputPortMac.toNat < 2 ^ 48)
    (hcontrol : config.controlPortMac.toNat < 2 ^ 48) :
    (local2protobuf config).map (protobuf2local stale) = some config ↔
      ∀ mac ∈ [config.inputPortMac, config.outputPortMac, config.controlPortMac],
        ∀ byte ∈ macBytes mac, byte < 0x80 := by
  constructor
  · intro hwire
    obtain ⟨message, hmessage, -⟩ := Option.map_eq_some_iff.1 hwire
    simp only [local2protobuf, Option.bind_eq_bind, Option.bind_eq_some_iff, convertUint64tMac_eq_some]
      at hmessage
    obtain ⟨_, ⟨hin, -⟩, _, ⟨hout, -⟩, _, ⟨hctl, -⟩, -⟩ := hmessage
    simpa only [List.forall_mem_cons, List.not_mem_nil, false_imp_iff, implies_true, and_true] using
      And.intro hin (And.intro hout hctl)
  · intro hbytes
    have hportable : config.Portable := by
      intro mac hmac
      refine ⟨?_, hbytes mac hmac⟩
      simp only [List.mem_cons, List.not_mem_nil, or_false] at hmac
      rcases hmac with rfl | rfl | rfl
      · exact hinput
      · exact houtput
      · exact hcontrol
    exact hportable.read_back stale

/-- A runtime whose addresses are locally administered. -/
def localConfig : RuntimeConfig := ⟨1, 0x020100000002, 0x030100000002, 0x040100000002, 0x0A000001, 10240⟩

theorem runtimeConfig_survives_wire_iff_localConfig :
    (local2protobuf localConfig).map (protobuf2local ⟨[], [], [], [0, 0, 0, 0], rfl⟩) =
      some localConfig := by
  have hportable : localConfig.Portable := by decide +kernel
  exact (runtimeConfig_survives_wire_iff _ localConfig (by decide) (by decide) (by decide)).2
    fun mac hmac ↦ (hportable mac hmac).2

/-- The text of `80:00:00:00:00:00` starts with `ffffff80`: it overflows the buffer, and the first byte read
back is `0xff`. -/
theorem mac_text_overflows :
    (0x80 : UInt64).toNat < 2 ^ 48 ∧ convertUint64tMac 0x80 = none ∧
      (macText 0x80).length + 1 = 24 ∧ ∀ stale, convertStringMac stale (macText 0x80) ≠ 0x80 := by
  refine ⟨by decide, by decide +kernel, by decide +kernel, fun stale hread ↦ ?_⟩
  have hscan : scanMac 6 (macText 0x80) = [0xff] := by decide +kernel
  rw [convertStringMac, ringMsgParseMacAddr, hscan, List.singleton_append, List.take_succ_cons,
    fromLittleEndian, List.foldr_cons] at hread
  have hvalue := congrArg UInt64.toNat hread
  rw [UInt64.toNat_ofNat'] at hvalue
  have hlow : (0xff : UInt8).toNat = 255 := rfl
  have heighty : (0x80 : UInt64).toNat = 128 := rfl
  omega

end NfvActor.Control
