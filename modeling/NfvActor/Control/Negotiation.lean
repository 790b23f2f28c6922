import Mathlib.Data.List.AList
import Mathlib.Tactic
import NfvActor.Control.Rpc

/-!
# Negotiation over texts

The RPC thread knows its peers by the text `ip:port`. Here its maps have texts for keys, and requests are the
messages on the wire. A text determines its address, so the maps of `RpcState` stand for maps over texts, with
the same answers to negotiations.
-/

namespace NfvActor.Control

open Function

/-- `std::to_string` of a port number. -/
def portText (port : Int32) : List Char :=
  if port.toInt < 0 then '-' :: Nat.toDigits 10 port.toInt.natAbs else Nat.toDigits 10 port.toInt.natAbs

def concatWithColon (s1 s2 : List Char) : List Char := s1 ++ ':' :: s2

/-- The protobuf message `Address`. -/
structure AddressMessage where
  rpcIp : List Char
  rpcPort : Int32
deriving DecidableEq, Repr

/-- The text under which a message names a runtime. -/
def AddressMessage.text (message : AddressMessage) : List Char :=
  concatWithColon message.rpcIp (portText message.rpcPort)

/-- The message in which a runtime with this address is named. -/
def Address.message (address : Address) : AddressMessage := ⟨convertUint32tIp address.rpcIp, address.rpcPort⟩

/-- The canonical text of an address. -/
def Address.text (address : Address) : List Char := address.message.text

theorem portText_injective : Function.Injective portText := by
  have hdigits (number number' : ℕ) (h : Nat.toDigits 10 number = Nat.toDigits 10 number') :
      number = number' := by
    have hvalue := congrArg (fun text ↦ Nat.ofDigitChars 10 text 0) h
    simpa only [Nat.ofDigitChars_toDigits (show 1 < 10 by decide) le_rfl] using hvalue
  have hsign (number : ℕ) (rest : List Char) : '-' :: rest ≠ Nat.toDigits 10 number := by
    intro h
    have hdash : '-' ∈ Nat.toDigits 10 number := h ▸ List.mem_cons_self
    exact absurd (Nat.isDigit_of_mem_toDigits (by decide) le_rfl hdash) (by decide)
  intro port port' h
  apply Int32.toInt_inj.1
  unfold portText at h
  split at h <;> split at h
  · have := hdigits _ _ (List.cons.inj h).2
    omega
  · exact absurd h (hsign _ _)
  · exact absurd h.symm (hsign _ _)
  · have := hdigits _ _ h
    omega

theorem colon_notMem_convertUint32tIp (ip : UInt32) : ':' ∉ convertUint32tIp ip := by
  have hdigits (number : ℕ) : ':' ∉ Nat.toDigits 10 number := by
    intro hcolon
    exact absurd (Nat.isDigit_of_mem_toDigits (by decide) le_rfl hcolon) (by decide)
  simp [convertUint32tIp, hdigits]

theorem concatWithColon_inj {s1 s1' s2 s2' : List Char} (hs1 : ':' ∉ s1) (hs1' : ':' ∉ s1')
    (h : concatWithColon s1 s2 = concatWithColon s1' s2') : s1 = s1' ∧ s2 = s2' := by
  have hbefore {s s' : List Char} (hs : ':' ∉ s) : (concatWithColon s s').takeWhile (· ≠ ':') = s := by
    have hall : ∀ char ∈ s, decide (char ≠ ':') = true := by
      intro char hchar
      exact decide_eq_true fun heq ↦ hs (heq ▸ hchar)
    rw [concatWithColon, List.takeWhile_append_of_pos hall]
    simp
  have hfirst : s1 = s1' := by rw [← hbefore hs1, h, hbefore hs1']
  rw [hfirst] at h
  exact ⟨hfirst, (List.cons.inj (List.append_cancel_left h)).2⟩

theorem convertUint32tIp_injective : Function.Injective convertUint32tIp := by
  intro ip ip' h
  have hstale : ([0, 0, 0, 0] : List UInt32).length = 4 := rfl
  rw [← convertStringIp_convertUint32tIp hstale ip, h, convertStringIp_convertUint32tIp hstale]

theorem Address.text_injective : Function.Injective Address.text := by
  intro address address' h
  have hparts := concatWithColon_inj (colon_notMem_convertUint32tIp _) (colon_notMem_convertUint32tIp _) h
  have hip := convertUint32tIp_injective hparts.1
  have hport := portText_injective hparts.2
  cases address
  cases address'
  exact congrArg₂ Address.mk hip hport

/-- `unordered_map<string, runtime_config>`. -/
abbrev NamedMap := AList fun _ : List Char ↦ RuntimeConfig

/-- `unordered_map::emplace`, which leaves an entry that exists alone. -/
def NamedMap.emplace (map : NamedMap) (key : List Char) (config : RuntimeConfig) : NamedMap :=
  if key ∈ map then map else map.insert key config

/-- The state of the RPC thread, with texts for keys. -/
structure NamedState where
  localRuntime : RuntimeConfig
  runtimes : Role → NamedMap

/-- `MigrationNegotiateReq` and `ReplicaNegotiateReq`. -/
structure NegotiateRequest where
  inputRuntimeAddrs : List AddressMessage
  outputRuntimeAddrs : List AddressMessage
  sourceConfig : ConfigMessage

/-- The state, a command for the worker and the reply of a negotiation. -/
structure NamedOutcome where
  state : NamedState
  command : Option (RpcOperation × RuntimeConfig)
  reply : Option ConfigMessage

namespace NamedState

def emplace (state : NamedState) (role : Role) (key : List Char) (config : RuntimeConfig) : NamedState :=
  { state with runtimes := update state.runtimes role ((state.runtimes role).emplace key config) }

variable (state : NamedState)

/-- The runtimes of a map as a request lists them. -/
def addressMessages (role : Role) : List AddressMessage :=
  (state.runtimes role).entries.map fun entry ↦ entry.2.address.message

/-- The request that `SetMigrationTarget` and `AddReplicas` build. -/
def negotiateRequest : Option NegotiateRequest :=
  (local2protobuf state.localRuntime).map fun sourceConfig ↦
    { inputRuntimeAddrs := state.addressMessages .input
      outputRuntimeAddrs := state.addressMessages .output
      sourceConfig }

/-- The callee answers with an empty reply. -/
def decline : NamedOutcome := ⟨state, none, none⟩

/-- Every named runtime is in the map. -/
def FindsAll (role : Role) (addrs : List AddressMessage) : Prop :=
  ∀ message ∈ addrs, message.text ∈ state.runtimes role

instance (state : NamedState) (role : Role) (addrs : List AddressMessage) :
    Decidable (state.FindsAll role addrs) :=
  inferInstanceAs (Decidable (∀ message ∈ addrs, _))

/-- Both negotiations, given the map that records the source and its key. A configuration that overflows the
buffers of `local2protobuf` has no reply. -/
def negotiate (role : Role) (operation : RpcOperation) (sourceAddr : List Char)
    (sourceConfig : RuntimeConfig) (request : NegotiateRequest) : Option NamedOutcome :=
  if (state.runtimes .input).keys.length ≠ request.inputRuntimeAddrs.length ∨
      (state.runtimes .output).keys.length ≠ request.outputRuntimeAddrs.length then
    some state.decline
  else if ¬ state.FindsAll .input request.inputRuntimeAddrs then some state.decline
  else if ¬ state.FindsAll .output request.outputRuntimeAddrs then some state.decline
  else if sourceAddr ∉ state.runtimes role then
    (local2protobuf state.localRuntime).map fun reply ↦
      { state := state.emplace role sourceAddr sourceConfig
        command := some (operation, sourceConfig)
        reply := some reply }
  else some state.decline

/-- `MigrationNegotiate`, which files the source under the text it came with. -/
def migrationNegotiate (state : NamedState) (stale : Stale) (request : NegotiateRequest) :
    Option NamedOutcome :=
  state.negotiate .migrationSource .migrationNegotiate
    (concatWithColon request.sourceConfig.rpcIp (portText request.sourceConfig.rpcPort))
    (protobuf2local stale request.sourceConfig) request

/-- `ReplicaNegotiate`, which files it under the text made from its configuration. -/
def replicaNegotiate (stale : Stale) (request : NegotiateRequest) :
    Option NamedOutcome :=
  state.negotiate .storage .addStorage (protobuf2local stale request.sourceConfig).address.text
    (protobuf2local stale request.sourceConfig) request

/-- The keys of a map are the canonical texts of its configurations. -/
def CanonicalIn (role : Role) : Prop :=
  ∀ entry ∈ (state.runtimes role).entries, entry.1 = entry.2.address.text

/-- The keys of `input_runtimes_` and `output_runtimes_` are canonical. -/
def Canonical : Prop := state.CanonicalIn .input ∧ state.CanonicalIn .output

instance (state : NamedState) : Decidable state.Canonical :=
  inferInstanceAs (Decidable ((∀ entry ∈ _, _) ∧ ∀ entry ∈ _, _))

/-- The addresses of the runtimes in a map. -/
def addressesIn (role : Role) : Set Address :=
  { address | ∃ entry ∈ (state.runtimes role).entries, entry.2.address = address }

variable {role : Role}

theorem text_addressMessages {state : NamedState} (hcanonical : state.CanonicalIn role) :
    (state.addressMessages role).map AddressMessage.text = (state.runtimes role).keys := by
  rw [addressMessages, List.map_map, AList.keys, List.keys]
  apply List.map_congr_left
  intro entry hentry
  exact (hcanonical entry hentry).symm

theorem mem_addressesIn_iff {state : NamedState} (hcanonical : state.CanonicalIn role) (address : Address) :
    address ∈ state.addressesIn role ↔ address.text ∈ state.runtimes role := by
  constructor
  · intro hmem
    obtain ⟨entry, hentry, rfl⟩ := hmem
    rw [← hcanonical entry hentry]
    exact List.mem_map_of_mem hentry
  · intro hmem
    obtain ⟨entry, hentry, htext⟩ := List.mem_map.1 (show address.text ∈ (state.runtimes role).keys from hmem)
    rw [hcanonical entry hentry] at htext
    exact ⟨entry, hentry, Address.text_injective htext⟩

/-- As many distinct texts as the map has keys, all found, are all the keys. -/
theorem addressesIn_eq {x y : NamedState} (hx : x.CanonicalIn role) (hy : y.CanonicalIn role)
    (hlength : (y.runtimes role).keys.length = (x.addressMessages role).length)
    (hfound : y.FindsAll role (x.addressMessages role)) : x.addressesIn role = y.addressesIn role := by
  have hsubset : (x.runtimes role).keys ⊆ (y.runtimes role).keys := by
    rw [← text_addressMessages hx]
    intro text htext
    obtain ⟨message, hmessage, rfl⟩ := List.mem_map.1 htext
    exact hfound message hmessage
  have hle : (y.runtimes role).keys.length ≤ (x.runtimes role).keys.length := by
    rw [← text_addressMessages hx, List.length_map, hlength]
  have hperm : (x.runtimes role).keys.Perm (y.runtimes role).keys :=
    (List.subperm_of_subset (x.runtimes role).keys_nodup hsubset).perm_of_length_le hle
  ext address
  rw [mem_addressesIn_iff hx, mem_addressesIn_iff hy]
  exact hperm.mem_iff

theorem addressesIn_of_negotiate {x y : NamedState} (hx : x.Canonical) (hy : y.Canonical)
    {request : NegotiateRequest} (hrequest : x.negotiateRequest = some request) {operation : RpcOperation}
    {sourceAddr : List Char} {sourceConfig : RuntimeConfig}
    (hanswer : y.negotiate role operation sourceAddr sourceConfig request ≠ some y.decline) :
    x.addressesIn .input = y.addressesIn .input ∧ x.addressesIn .output = y.addressesIn .output := by
  obtain ⟨sourceMessage, -, rfl⟩ := Option.map_eq_some_iff.1 hrequest
  unfold negotiate at hanswer
  split at hanswer
  · exact absurd rfl hanswer
  · next hlengths =>
    rw [not_or, not_ne_iff, not_ne_iff] at hlengths
    split at hanswer
    · exact absurd rfl hanswer
    · next hinput =>
      split at hanswer
      · exact absurd rfl hanswer
      · next houtput =>
        exact ⟨addressesIn_eq hx.1 hy.1 hlengths.1 (not_not.1 hinput),
          addressesIn_eq hx.2 hy.2 hlengths.2 (not_not.1 houtput)⟩

/-- A callee that does not decline has the input and output runtimes of its caller. -/
theorem negotiation_needs_same_neighbours {x y : NamedState} (hx : x.Canonical) (hy : y.Canonical)
    (stale : Stale) {request : NegotiateRequest} (hrequest : x.negotiateRequest = some request)
    (hanswer : y.migrationNegotiate stale request ≠ some y.decline ∨
      y.replicaNegotiate stale request ≠ some y.decline) :
    x.addressesIn .input = y.addressesIn .input ∧ x.addressesIn .output = y.addressesIn .output := by
  cases hanswer with
  | inl hmigration => exact addressesIn_of_negotiate hx hy hrequest hmigration
  | inr hreplica => exact addressesIn_of_negotiate hx hy hrequest hreplica

def ofNeighbours (localRuntime : RuntimeConfig) (inputs outputs : List RuntimeConfig) : NamedState where
  localRuntime := localRuntime
  runtimes := fun role ↦
    match role with
    | .input => inputs.foldl (fun map config ↦ NamedMap.emplace map config.address.text config) ∅
    | .output => outputs.foldl (fun map config ↦ NamedMap.emplace map config.address.text config) ∅
    | _ => ∅

/-- Two runtimes with the same two inputs in different orders agree on a migration. -/
theorem negotiation_needs_same_neighbours_reordered :
    ∃ x y : NamedState, x.Canonical ∧ y.Canonical ∧ (x.runtimes .input).keys ≠ (y.runtimes .input).keys ∧
      (x.addressesIn .input = y.addressesIn .input ∧ x.addressesIn .output = y.addressesIn .output) := by
  let first : RuntimeConfig := { localConfig with rpcIp := 0x0A000003 }
  let second : RuntimeConfig := { localConfig with rpcIp := 0x0A000004 }
  let x := ofNeighbours localConfig [first, second] []
  let y := ofNeighbours { localConfig with rpcIp := 0x0A000002 } [second, first] []
  let stale : Stale := ⟨[], [], [], [0, 0, 0, 0], rfl⟩
  have hcanonical : x.Canonical ∧ y.Canonical ∧ (x.runtimes .input).keys ≠ (y.runtimes .input).keys := by
    decide +kernel
  obtain ⟨request, hrequest, outcome, houtcome, hreply⟩ : ∃ request ∈ x.negotiateRequest,
      ∃ outcome ∈ y.migrationNegotiate stale request, outcome.reply.isSome = true := by decide +kernel
  have hanswer : y.migrationNegotiate stale request ≠ some y.decline := by
    rw [houtcome]
    intro h
    rw [Option.some.inj h] at hreply
    exact absurd hreply (by simp [decline])
  exact ⟨x, y, hcanonical.1, hcanonical.2.1, hcanonical.2.2,
    negotiation_needs_same_neighbours hcanonical.1 hcanonical.2.1 stale hrequest (.inl hanswer)⟩

end NamedState

/-! ## The maps over addresses -/

/-- A map over addresses, with the canonical texts for keys. -/
def RuntimeMap.named (map : RuntimeMap) : NamedMap where
  entries := map.entries.map fun entry ↦ ⟨entry.1.text, entry.2.val⟩
  nodupKeys := by
    change ((map.entries.map _).map Sigma.fst).Nodup
    have hnodup : (map.entries.map Sigma.fst).Nodup := map.keys_nodup
    have hmap := hnodup.map Address.text_injective
    rw [List.map_map] at hmap ⊢
    exact hmap

theorem RuntimeMap.text_mem_named (map : RuntimeMap) (address : Address) :
    address.text ∈ map.named ↔ address ∈ map := by
  have hkeys : map.named.keys = map.keys.map Address.text := by
    rw [AList.keys, AList.keys, List.keys, List.keys, RuntimeMap.named, List.map_map, List.map_map]
    rfl
  change address.text ∈ map.named.keys ↔ address ∈ map.keys
  rw [hkeys, List.mem_map]
  constructor
  · intro h
    obtain ⟨other, hother, htext⟩ := h
    rwa [← Address.text_injective htext]
  · exact fun h ↦ ⟨address, h, rfl⟩

theorem RuntimeMap.named_emplace (map : RuntimeMap) (address : Address) (peer : Peer) :
    (RuntimeMap.emplace map address peer).named = NamedMap.emplace map.named address.text peer.val := by
  simp only [RuntimeMap.emplace, NamedMap.emplace, text_mem_named]
  split
  · rfl
  · next habsent =>
    have habsent' : address.text ∉ map.named := fun h ↦ habsent ((map.text_mem_named address).1 h)
    apply AList.ext
    calc (RuntimeMap.named (map.insert address peer)).entries
        = (map.insert address peer).entries.map fun entry ↦ ⟨entry.1.text, entry.2.val⟩ := rfl
      _ = ⟨address.text, peer.val⟩ :: map.named.entries := by
          rw [AList.entries_insert_of_notMem habsent]
          rfl
      _ = (map.named.insert address.text peer.val).entries := (AList.entries_insert_of_notMem habsent').symm

def RpcState.named (state : RpcState) : NamedState where
  localRuntime := state.localRuntime.val
  runtimes := fun role ↦ (state.runtimes role).named

namespace RpcState

theorem named_emplace (state : RpcState) (role : Role) (address : Address) (peer : Peer) :
    (state.emplace role address peer).named = state.named.emplace role address.text peer.val := by
  have hruntimes : (fun other ↦ ((state.emplace role address peer).runtimes other).named) =
      (state.named.emplace role address.text peer.val).runtimes := by
    funext other
    by_cases hother : other = role
    · rw [hother]
      simp only [emplace, NamedState.emplace, update_self]
      exact RuntimeMap.named_emplace _ _ _
    · simp only [emplace, NamedState.emplace, update_of_ne hother]
      rfl
  exact congrArg (NamedState.mk state.localRuntime.val) hruntimes

/-- The outcome of a handler, with texts for keys and a message for a reply. -/
def Outcome.named (outcome : Outcome) : NamedOutcome where
  state := outcome.state.named
  command := outcome.command.map fun command ↦ (command.operation, command.rtConfig.val)
  reply := outcome.reply.bind fun peer ↦ local2protobuf peer.val

variable {message : ConfigMessage}

/-- A request is answered over texts as it is over addresses. -/
theorem named_negotiate (x y : RpcState) (hmessage : local2protobuf x.localRuntime.val = some message)
    (role : Role) (operation : RpcOperation) :
    x.named.negotiateRequest.bind (y.named.negotiate role operation x.localAddress.text x.localRuntime.val) =
      some (y.negotiate role operation (x.addrs .input) (x.addrs .output) x.localRuntime).named := by
  have hfound (role : Role) : y.named.FindsAll role (x.named.addressMessages role) ↔
      ∀ address ∈ x.addrs role, address ∈ y.runtimes role := by
    unfold NamedState.FindsAll NamedState.addressMessages addrs RpcState.named RuntimeMap.named
    simp only [List.forall_mem_map]
    exact forall₂_congr fun entry _ ↦ (y.runtimes role).text_mem_named _
  have hkeys (role : Role) : (y.named.runtimes role).keys.length = (y.runtimes role).keys.length := by
    rw [AList.keys, AList.keys, List.keys, List.keys, List.length_map, List.length_map]
    exact List.length_map _
  have hlength (role : Role) : (x.named.addressMessages role).length = (x.addrs role).length := by
    simp [NamedState.addressMessages, addrs, RpcState.named, RuntimeMap.named]
  obtain ⟨reply, hreply⟩ : ∃ reply, local2protobuf y.localRuntime.val = some reply := by
    have hback := y.localRuntime.read_back ⟨[], [], [], [0, 0, 0, 0], rfl⟩
    obtain ⟨reply, hreply, -⟩ := Option.map_eq_some_iff.1 hback
    exact ⟨reply, hreply⟩
  have hsource : (x.localAddress.text ∈ y.named.runtimes role) ↔
      x.localRuntime.val.address ∈ y.runtimes role := (y.runtimes role).text_mem_named _
  have hlocal : local2protobuf x.named.localRuntime = some message := hmessage
  have hlocal' : local2protobuf y.named.localRuntime = some reply := hreply
  rw [NamedState.negotiateRequest, hlocal, Option.map_some, Option.bind_some, NamedState.negotiate, hlocal',
    Option.map_some]
  simp only [hkeys, hlength, hfound, hsource, negotiate]
  by_cases hsame : y.sameNeighbours (x.addrs .input) (x.addrs .output)
  · have hparts := hsame
    unfold sameNeighbours at hparts
    rw [if_neg (not_or.2 ⟨not_not.2 hparts.1.1, not_not.2 hparts.1.2⟩), if_neg (not_not.2 hparts.2.1),
      if_neg (not_not.2 hparts.2.2), if_neg (not_not.2 hsame)]
    split
    · simp only [Outcome.named, accept, named_emplace, Option.map_some, Option.bind_some, hreply]
      rfl
    · rfl
  · rw [if_pos hsame]
    split
    · rfl
    · next hlengths =>
      rw [not_or, not_ne_iff, not_ne_iff] at hlengths
      split
      · rfl
      · next hinput =>
        split
        · rfl
        · next houtput => exact absurd ⟨hlengths, not_not.1 hinput, not_not.1 houtput⟩ hsame

theorem text_of_local2protobuf {config : RuntimeConfig} (hmessage : local2protobuf config = some message) :
    concatWithColon message.rpcIp (portText message.rpcPort) = config.address.text := by
  simp only [local2protobuf, Option.bind_eq_bind, Option.bind_eq_some_iff, Option.some.injEq] at hmessage
  obtain ⟨inputMac, -, outputMac, -, controlMac, -, rfl⟩ := hmessage
  rfl

/-- Both negotiations over texts are the handlers over addresses. -/
theorem named_handle (x y : RpcState) (stale : Stale) :
    x.named.negotiateRequest.bind (y.named.migrationNegotiate stale) =
        some (y.handle (x.nestedRequest .setMigrationTarget)).named ∧
      x.named.negotiateRequest.bind (y.named.replicaNegotiate stale) =
        some (y.handle (x.nestedRequest .addReplicas)).named := by
  obtain ⟨message, hmessage, hconfig⟩ := Option.map_eq_some_iff.1 (x.localRuntime.read_back stale)
  have hrequest : x.named.negotiateRequest = some
      { inputRuntimeAddrs := x.named.addressMessages .input
        outputRuntimeAddrs := x.named.addressMessages .output
        sourceConfig := message } := by
    rw [NamedState.negotiateRequest]
    change (local2protobuf x.localRuntime.val).map _ = _
    rw [hmessage, Option.map_some]
  have hmigration := x.named_negotiate y hmessage .migrationSource .migrationNegotiate
  have hreplica := x.named_negotiate y hmessage .storage .addStorage
  rw [hrequest, Option.bind_some] at hmigration hreplica ⊢
  constructor
  · rw [NamedState.migrationNegotiate, text_of_local2protobuf hmessage, hconfig]
    exact hmigration
  · rw [Option.bind_some, NamedState.replicaNegotiate, hconfig]
    exact hreplica

end RpcState

end NfvActor.Control
