import Mathlib.Data.List.GetD
import Mathlib.Data.Nat.Digits.Lemmas
import Mathlib.Tactic

/-!
# The configured service chain

`parse_service_chain` packs the ids of the configured network functions into a 64-bit word, and
`get_service_chain` unpacks it. The first name ends up in the highest byte, and the lowest byte is unpacked
first, so the chain comes out in the opposite order.
-/

namespace NfvActor.Nf

/-- Names as the sequence of their characters. -/
abbrev Name := List Char

/-- A registered network function; `β` is the type of `network_function_base` objects. -/
structure Registration (β : Type) where
  name : Name
  id : UInt8
  nf : β
deriving DecidableEq

/-- `network_function_register`. A name or an id that is taken is refused; a name with a comma or the id zero
could never be looked up. -/
structure Register (β : Type) where
  entries : List (Registration β)
  names : (entries.map Registration.name).Nodup
  ids : (entries.map Registration.id).Nodup
  plain : ∀ entry ∈ entries, ',' ∉ entry.name
  numbered : ∀ entry ∈ entries, entry.id ≠ 0

namespace Register

variable {β : Type}

/-- The entry of `name_id_map_`, with the object registered with it. -/
def entry? (register : Register β) (name : Name) : Option (Registration β) :=
  register.entries.find? fun entry ↦ entry.name = name

def lookUpId (register : Register β) (name : Name) : UInt8 :=
  (register.entry? name).elim 0 Registration.id

/-- `id_nf_map_.find`; the source dereferences the end of the map for an unknown id. -/
def object? (register : Register β) (id : UInt8) : Option β :=
  (register.entries.find? fun entry ↦ entry.id = id).map Registration.nf

/-- One name of the configuration; unknown names are skipped. -/
def addName (register : Register β) (serviceChain : UInt64) (name : Name) : UInt64 :=
  let nfId := register.lookUpId name
  if nfId = 0 then serviceChain else (serviceChain <<< 8) ||| nfId.toUInt64

/-- The loop of `parse_service_chain` behind position `i`. -/
def parseLoop (register : Register β) : ℕ → List Char → UInt64 → UInt64
  | 0, _, serviceChain => serviceChain
  | _, [], serviceChain => serviceChain
  | fuel + 1, char :: chars, serviceChain =>
    match (char :: chars).dropWhile (· ≠ ',') with
    | [] => parseLoop register fuel chars serviceChain
    | _ :: rest =>
      parseLoop register fuel rest
        (register.addName serviceChain ((char :: chars).takeWhile (· ≠ ',')))

/-- `parse_service_chain`, which compares with `null` after the comma was appended. -/
def parseServiceChain (register : Register β) (str : List Char) : UInt64 :=
  let str := str ++ [',']
  if str = "null".toList then 0 else register.parseLoop str.length str 0

def computeNetworkFunction (serviceChain : UInt64) (pos : ℕ) : UInt8 :=
  ((serviceChain >>> UInt64.ofNat (8 * pos)) &&& 0xFF).toUInt8

/-- The loop of `compute_service_chain_length`. -/
def lengthLoop (serviceChain : UInt64) : List ℕ → ℤ → Bool → ℤ
  | [], length, _ => length
  | pos :: rest, length, encounterZero =>
    if 0 < computeNetworkFunction serviceChain pos then
      if encounterZero then -1 else lengthLoop serviceChain rest (length + 1) encounterZero
    else
      lengthLoop serviceChain rest length true

def computeServiceChainLength (serviceChain : UInt64) : ℤ :=
  lengthLoop serviceChain (List.range 8) 0 false

def getServiceChain (register : Register β) (serviceChain : UInt64) : Option (List β) :=
  (List.range (computeServiceChainLength serviceChain).toNat).mapM fun pos ↦
    register.object? (computeNetworkFunction serviceChain pos)

/-- The word whose bytes are the given ids, the first one lowest. -/
def pack : List UInt8 → UInt64
  | [] => 0
  | id :: rest => (pack rest <<< 8) ||| id.toUInt64

variable {ids : List UInt8} {names : List Name} {entry : Registration β}

theorem toNat_pack (hlen : ids.length ≤ 8) : (pack ids).toNat = Nat.ofDigits 256 (ids.map UInt8.toNat) := by
  induction ids with
  | nil => rfl
  | cons id rest ih =>
    rw [List.length_cons] at hlen
    have hrest := ih (by omega)
    have hbound : (pack rest).toNat < 256 ^ 7 := by
      rw [hrest]
      refine lt_of_lt_of_le (Nat.ofDigits_lt_base_pow_length (by decide) ?_) (Nat.pow_le_pow_right (by decide) ?_)
      · intro digit hdigit
        obtain ⟨byte, -, rfl⟩ := List.mem_map.1 hdigit
        exact byte.toNat_lt
      · rw [List.length_map]
        omega
    have hshift : (pack rest <<< 8).toNat = (pack rest).toNat <<< 8 := by
      have hwidth : UInt64.toNat 8 % 64 = 8 := rfl
      rw [UInt64.toNat_shiftLeft, hwidth, Nat.shiftLeft_eq]
      exact Nat.mod_eq_of_lt (by omega)
    have hor : (pack rest).toNat <<< 8 ||| id.toNat = (pack rest).toNat <<< 8 + id.toNat :=
      (Nat.shiftLeft_add_eq_or_of_lt id.toNat_lt _).symm
    rw [pack, UInt64.toNat_or, hshift, UInt8.toNat_toUInt64, hor, hrest, List.map_cons, Nat.ofDigits_cons,
      Nat.shiftLeft_eq]
    omega

/-- A byte of the word is the id, and zero behind the last one. -/
theorem computeNetworkFunction_pack (hlen : ids.length ≤ 8) {pos : ℕ} (hpos : pos < 8) :
    computeNetworkFunction (pack ids) pos = ids.getD pos 0 := by
  apply UInt8.toNat_inj.1
  have hshift : (UInt64.ofNat (8 * pos)).toNat % 64 = 8 * pos := by
    rw [UInt64.toNat_ofNat']
    omega
  have hbytes : ∀ digit ∈ ids.map UInt8.toNat, digit < 256 := by
    intro digit hdigit
    obtain ⟨byte, -, rfl⟩ := List.mem_map.1 hdigit
    exact byte.toNat_lt
  have hdrop : (pack ids).toNat / 2 ^ (8 * pos) = Nat.ofDigits 256 ((ids.map UInt8.toNat).drop pos) := by
    rw [toNat_pack hlen, pow_mul]
    exact Nat.ofDigits_div_pow_eq_ofDigits_drop pos (by decide) _ hbytes
  have hand : ∀ value : ℕ, value &&& 255 = value % 256 := fun value ↦ Nat.and_two_pow_sub_one_eq_mod value 8
  rw [computeNetworkFunction, UInt64.toNat_toUInt8, UInt64.toNat_and, UInt64.toNat_shiftRight, hshift,
    Nat.shiftRight_eq_div_pow, hdrop]
  change (_ &&& 255) % 2 ^ 8 = _
  rw [hand, ← List.map_drop]
  cases hrest : ids.drop pos with
  | nil =>
    rw [List.getD_eq_default ids 0 (List.drop_eq_nil_iff.1 hrest)]
    rfl
  | cons id =>
    have hget : ids.getD pos 0 = id := by
      rw [List.getD_eq_getElem?_getD, ← List.head?_drop, hrest]
      rfl
    rw [hget, List.map_cons, Nat.ofDigits_cons]
    have hlt := id.toNat_lt
    omega

/-- A word of ids that are not zero is as long as there are ids. -/
theorem computeServiceChainLength_pack (hlen : ids.length ≤ 8) (hids : ∀ id ∈ ids, id ≠ 0) :
    computeServiceChainLength (pack ids) = ids.length := by
  have hloop : ∀ (count start : ℕ) (length : ℤ), start + count = 8 →
      (start ≤ ids.length → lengthLoop (pack ids) (List.range' start count) start false = ids.length) ∧
      (ids.length ≤ start → lengthLoop (pack ids) (List.range' start count) length true = length) := by
    intro count
    induction count with
    | zero =>
      intro start length hstart
      refine ⟨fun hle ↦ ?_, fun _ ↦ rfl⟩
      change (start : ℤ) = _
      omega
    | succ _ ih =>
      intro start length hstart
      have hbyte := computeNetworkFunction_pack hlen (show start < 8 by omega)
      have hnext := ih (start + 1) length (by omega)
      rw [List.range'_succ]
      constructor
      · intro hle
        rcases hle.lt_or_eq with hlt | heq
        · have hpos : 0 < computeNetworkFunction (pack ids) start := by
            rw [hbyte, List.getD_eq_getElem ids 0 hlt]
            exact UInt8.pos_iff_ne_zero.2 (hids _ (List.getElem_mem hlt))
          rw [lengthLoop, if_pos hpos, if_neg (by decide)]
          exact hnext.1 hlt
        · have hzero : ¬0 < computeNetworkFunction (pack ids) start := by
            rw [hbyte, List.getD_eq_default ids 0 heq.ge]
            decide
          rw [lengthLoop, if_neg hzero, (ih (start + 1) start (by omega)).2 (by omega), heq]
      · intro hle
        have hzero : ¬0 < computeNetworkFunction (pack ids) start := by
          rw [hbyte, List.getD_eq_default ids 0 hle]
          decide
        rw [lengthLoop, if_neg hzero]
        exact hnext.2 (by omega)
  have hstart := (hloop 8 0 0 (by omega)).1 (Nat.zero_le _)
  rw [← List.range_eq_range'] at hstart
  exact hstart

/-! ## Reading the names -/

variable {register : Register β}

/-- The registrations of the known names, in order. -/
def known (register : Register β) (names : List Name) : List (Registration β) :=
  names.filterMap register.entry?

theorem mem_of_mem_known (h : entry ∈ register.known names) : entry ∈ register.entries := by
  obtain ⟨name, -, hentry⟩ := List.mem_filterMap.1 h
  exact List.mem_of_find?_eq_some hentry

theorem addName_of_known {serviceChain : UInt64} {name : Name} (h : register.entry? name = some entry) :
    register.addName serviceChain name = (serviceChain <<< 8) ||| entry.id.toUInt64 := by
  have hid : register.lookUpId name = entry.id := by
    rw [lookUpId, h]
    rfl
  have hne := register.numbered entry (List.mem_of_find?_eq_some h)
  rw [addName, hid, if_neg hne]

theorem addName_of_unknown {serviceChain : UInt64} {name : Name} (h : register.entry? name = none) :
    register.addName serviceChain name = serviceChain := by
  rw [addName, lookUpId, h]
  rfl

/-- The names are packed in the opposite order. -/
theorem foldl_addName (names : List Name) (ids : List UInt8) : names.foldl register.addName (pack ids) =
      pack (((register.known names).map Registration.id).reverse ++ ids) := by
  induction names generalizing ids with
  | nil => rfl
  | cons name _ ih =>
    rw [List.foldl_cons, known, List.filterMap_cons]
    cases hentry : register.entry? name with
    | none =>
      rw [addName_of_unknown hentry]
      exact ih ids
    | some entry =>
      rw [addName_of_known hentry]
      have hnext := ih (entry.id :: ids)
      rw [List.map_cons, List.reverse_cons, List.append_assoc]
      exact hnext

/-- The text that the names make up, each one with the comma behind it. -/
def commaEnded (names : List Name) : List Char := names.flatMap fun name ↦ name ++ [',']

theorem commaEnded_cons (name : Name) (rest : List Name) :
    commaEnded (name :: rest) = name ++ ',' :: commaEnded rest := by
  rw [commaEnded, List.flatMap_cons, List.append_assoc]
  rfl

theorem parseLoop_commaEnded (names : List Name) (hplain : ∀ name ∈ names, ',' ∉ name) {fuel : ℕ}
    (hfuel : (commaEnded names).length ≤ fuel) (serviceChain : UInt64) :
    register.parseLoop fuel (commaEnded names) serviceChain = names.foldl register.addName serviceChain := by
  induction names generalizing fuel serviceChain with
  | nil => cases fuel <;> rfl
  | cons name rest ih =>
    have hname : ∀ char ∈ name, decide (char ≠ ',') = true := by
      intro char hchar
      rw [decide_eq_true_eq]
      rintro rfl
      exact hplain name List.mem_cons_self hchar
    have htake : (name ++ ',' :: commaEnded rest).takeWhile (· ≠ ',') = name := by
      rw [List.takeWhile_append_of_pos hname]
      simp
    have hdrop : (name ++ ',' :: commaEnded rest).dropWhile (· ≠ ',') = ',' :: commaEnded rest := by
      rw [List.dropWhile_append_of_pos hname]
      simp
    rw [commaEnded_cons] at hfuel ⊢
    rw [List.length_append, List.length_cons] at hfuel
    obtain ⟨fuel, rfl⟩ : ∃ less, fuel = less + 1 := ⟨fuel - 1, by omega⟩
    cases htext : name ++ ',' :: commaEnded rest with
    | nil => exact absurd htext (by simp)
    | cons =>
      rw [parseLoop, ← htext, hdrop, htake, List.foldl_cons]
      exact ih (fun other hother ↦ hplain other (List.mem_cons_of_mem _ hother)) (by omega) _

/-- The configuration string of a list of names. -/
def join (names : List Name) : List Char := [','].intercalate names

theorem join_comma (h : names ≠ []) : join names ++ [','] = commaEnded names := by
  induction names with
  | nil => exact absurd rfl h
  | cons _ rest ih =>
    cases rest with
    | nil => simp [join, commaEnded]
    | cons =>
      have htail := ih (by simp)
      rw [commaEnded_cons, ← htail, join, List.intercalate_cons_cons]
      simp [join]

/-- The word of a configuration: the ids of the known names, the last one lowest. -/
theorem parseServiceChain_join (hnames : names ≠ []) (hplain : ∀ name ∈ names, ',' ∉ name) :
    register.parseServiceChain (join names) = pack ((register.known names).map Registration.id).reverse := by
  have hcomma : join names ++ [','] ≠ "null".toList := by
    intro heq
    have hlast := congrArg List.getLast? heq
    rw [List.getLast?_concat] at hlast
    exact absurd hlast (by decide)
  have hfold := @foldl_addName β register names []
  rw [List.append_nil] at hfold
  rw [parseServiceChain, if_neg hcomma, join_comma hnames, parseLoop_commaEnded names hplain le_rfl]
  exact hfold

theorem mapM_range_length {α : Type} {values : List α} {read : ℕ → Option α}
    (h : ∀ pos (hpos : pos < values.length), read pos = some values[pos]) :
    (List.range values.length).mapM read = some values := by
  induction values generalizing read with
  | nil => rfl
  | cons value rest ih =>
    have hfirst : read 0 = some value := h 0 (by simp)
    have hrest : (List.range rest.length).mapM (read ∘ Nat.succ) = some rest :=
      ih fun pos hpos ↦ h (pos + 1) (by simpa using hpos)
    rw [List.length_cons, List.range_succ_eq_map, List.mapM_cons, hfirst, List.mapM_map, hrest]
    rfl

theorem object?_eq (h : entry ∈ register.entries) : register.object? entry.id = some entry.nf := by
  cases hfind : register.entries.find? fun other ↦ decide (other.id = entry.id) with
  | none =>
    rw [List.find?_eq_none] at hfind
    exact absurd (decide_eq_true rfl) (hfind entry h)
  | some found =>
    have hfound := List.find?_some hfind
    have hid : found.id = entry.id := of_decide_eq_true hfound
    have heq : found = entry := List.inj_on_of_nodup_map register.ids (List.mem_of_find?_eq_some hfind) h hid
    rw [object?, hfind, heq]
    rfl

/-- A word of registered ids is unpacked lowest byte first. -/
theorem getServiceChain_pack {chain : List (Registration β)} (hlen : chain.length ≤ 8)
    (hchain : ∀ entry ∈ chain, entry ∈ register.entries) :
    register.getServiceChain (pack (chain.map Registration.id)) = some (chain.map Registration.nf) := by
  have hlen' : (chain.map Registration.id).length ≤ 8 := by rwa [List.length_map]
  have hids : ∀ id ∈ chain.map Registration.id, id ≠ 0 := by
    intro id hid
    obtain ⟨entry, hentry, rfl⟩ := List.mem_map.1 hid
    exact register.numbered entry (hchain entry hentry)
  have hcount : (computeServiceChainLength (pack (chain.map Registration.id))).toNat =
      (chain.map Registration.nf).length := by
    rw [computeServiceChainLength_pack hlen' hids, Int.toNat_natCast, List.length_map, List.length_map]
  rw [getServiceChain, hcount]
  refine mapM_range_length fun pos hpos ↦ ?_
  rw [List.length_map] at hpos
  rw [computeNetworkFunction_pack hlen' (by omega),
    List.getD_eq_getElem _ 0 (by rwa [List.length_map] : pos < (chain.map Registration.id).length),
    List.getElem_map, List.getElem_map]
  exact object?_eq (hchain _ (List.getElem_mem hpos))

/-- The chain of a configuration: the known names in the opposite order. -/
theorem getServiceChain_parseServiceChain (hnames : names ≠ []) (hplain : ∀ name ∈ names, ',' ∉ name)
    (hlen : (register.known names).length ≤ 8) :
    register.getServiceChain (register.parseServiceChain (join names)) =
      some ((register.known names).map Registration.nf).reverse := by
  rw [parseServiceChain_join hnames hplain, ← List.map_reverse, ← List.map_reverse]
  refine getServiceChain_pack (by rwa [List.length_reverse]) fun entry hentry ↦ ?_
  exact mem_of_mem_known (List.mem_reverse.1 hentry)

/-- For at most eight known names the chain has the order of the names if and only if the objects read the same
in both directions, and unknown names make no difference. -/
theorem service_chain_round_trip (register : Register β) (names : List Name) (hnames : names ≠ [])
    (hplain : ∀ name ∈ names, ',' ∉ name) (hlen : (register.known names).length ≤ 8) :
    (register.getServiceChain (register.parseServiceChain (join names)) =
        some ((register.known names).map Registration.nf) ↔
      ((register.known names).map Registration.nf).reverse = (register.known names).map Registration.nf) ∧
    ∀ fewer ≠ [], (∀ name ∈ fewer, ',' ∉ name) → register.known fewer = register.known names →
      register.getServiceChain (register.parseServiceChain (join fewer)) =
        register.getServiceChain (register.parseServiceChain (join names)) := by
  have hchain := getServiceChain_parseServiceChain hnames hplain hlen
  constructor
  · rw [hchain, Option.some.injEq]
  · intro fewer hfewer hplain' hknown
    rw [hchain, getServiceChain_parseServiceChain hfewer hplain' (by rw [hknown]; exact hlen), hknown]

/-- The classes that are registered. -/
inductive Kind
  | pktCounter
  | firewall
  | loadBalancer
  | nat
deriving DecidableEq, Repr

/-- What the four calls of `register_nf` leave behind. -/
def registered : Register Kind where
  entries := [⟨"pkt_counter".toList, 1, .pktCounter⟩, ⟨"firewall".toList, 2, .firewall⟩,
    ⟨"load_balancer".toList, 3, .loadBalancer⟩, ⟨"nat".toList, 4, .nat⟩]
  names := by decide
  ids := by decide
  plain := by decide
  numbered := by decide

/-- A chain that reads the same in both directions, with an unknown name. -/
theorem service_chain_round_trip_symmetric :
    registered.getServiceChain (registered.parseServiceChain
      (join ["nat".toList, "firewall".toList, "proxy".toList, "nat".toList])) =
        some [.nat, .firewall, .nat] := by
  have hknown : (registered.known
      ["nat".toList, "firewall".toList, "proxy".toList, "nat".toList]).map Registration.nf =
        [.nat, .firewall, .nat] := by decide
  have hchain := (service_chain_round_trip registered
    ["nat".toList, "firewall".toList, "proxy".toList, "nat".toList] (by decide) (by decide) (by decide)).1.2
  rw [hknown] at hchain
  exact hchain rfl

/-- The firewall is configured before the address translation and comes out behind it. -/
theorem service_chain_reversed :
    registered.getServiceChain (registered.parseServiceChain
      (join ["firewall".toList, "nat".toList])) = some [.nat, .firewall] := by
  decide +kernel

end Register

end NfvActor.Nf
