import Mathlib.Data.List.AList
import Mathlib.Tactic
import NfvActor.Control.Wire

/-!
# The RPC thread of a runtime

The RPC thread keeps six maps of peers and answers RPCs one at a time. Handlers that add a peer call that peer
in turn, so each of them is split where the thread waits: the check of an address, the nested request, its
handler at the peer, and the record made of the answer.
-/

namespace NfvActor.Control

open Function

/-- The canonical text `ip:port` that a runtime makes of its configuration. Requests are taken to name runtimes
by it: another name would be another key. -/
structure Address where
  rpcIp : UInt32
  rpcPort : Int32
deriving DecidableEq, Repr

def RuntimeConfig.address (config : RuntimeConfig) : Address := ⟨config.rpcIp, config.rpcPort⟩

/-- A configuration that may be sent to other runtimes. -/
abbrev Peer := { config : RuntimeConfig // config.Portable }

/-- Peers read what a runtime sends of itself, so messages carry configurations. -/
theorem Peer.read_back (peer : Peer) (stale : Stale) :
    (local2protobuf peer.val).map (protobuf2local stale) = some peer.val :=
  peer.property.read_back stale

/-- The six maps of the RPC thread. -/
inductive Role where
  | input
  | output
  | replica
  | storage
  | migrationTarget
  | migrationSource
deriving DecidableEq, Repr

instance : Fintype Role :=
  ⟨{.input, .output, .replica, .storage, .migrationTarget, .migrationSource}, fun role ↦ by cases role <;> decide⟩

/-- The roles of data-plane neighbours; the others are control-plane roles. -/
def Role.isDataPlane : Role → Bool
  | .input | .output => true
  | .replica | .storage | .migrationTarget | .migrationSource => false

/-- `unordered_map<string, runtime_config>`. -/
abbrev RuntimeMap := AList fun _ : Address ↦ Peer

/-- `unordered_map::emplace`, which leaves an entry that exists alone. -/
def RuntimeMap.emplace (map : RuntimeMap) (address : Address) (peer : Peer) : RuntimeMap :=
  if address ∈ map then map else map.insert address peer

/-- The state of the RPC thread. -/
structure RpcState where
  localRuntime : Peer
  runtimes : Role → RuntimeMap

/-- `rpc_operation`, as far as it concerns links to peers. -/
inductive RpcOperation where
  | addInputRuntime
  | addOutputRuntime
  | deleteInputRuntime
  | deleteOutputRuntime
  | setMigrationTarget
  | migrationNegotiate
  | deleteMigrationTarget
  | deleteMigrationSource
  | addReplica
  | addStorage
  | removeReplica
  | removeStorage
deriving DecidableEq, Repr

/-- `llring_item`, which the RPC thread hands to its worker and waits for. -/
structure Command where
  operation : RpcOperation
  rtConfig : Peer
deriving DecidableEq

namespace RpcState

def localAddress (state : RpcState) : Address := state.localRuntime.val.address

def emplace (state : RpcState) (role : Role) (address : Address) (peer : Peer) : RpcState :=
  { state with runtimes := update state.runtimes role ((state.runtimes role).emplace address peer) }

def erase (state : RpcState) (role : Role) (address : Address) : RpcState :=
  { state with runtimes := update state.runtimes role ((state.runtimes role).erase address) }

end RpcState

/-- The RPCs that add a peer on both sides. -/
inductive Negotiation where
  | addOutputRts
  | setMigrationTarget
  | addReplicas
deriving DecidableEq, Repr

/-- The role in which the caller records the callee. -/
def Negotiation.callerRole : Negotiation → Role
  | .addOutputRts => .output
  | .setMigrationTarget => .migrationTarget
  | .addReplicas => .replica

/-- The role in which the callee records the caller. -/
def Negotiation.calleeRole : Negotiation → Role
  | .addOutputRts => .input
  | .setMigrationTarget => .migrationSource
  | .addReplicas => .storage

/-- The requests sent to a peer. -/
inductive NestedRequest where
  | addInputRt (inputRuntime : Peer)
  | migrationNegotiate (inputRuntimeAddrs outputRuntimeAddrs : List Address) (migrationSource : Peer)
  | replicaNegotiate (inputRuntimeAddrs outputRuntimeAddrs : List Address) (replicationSource : Peer)
deriving DecidableEq

/-- The RPC of the controller that a nested request belongs to. -/
def NestedRequest.negotiation : NestedRequest → Negotiation
  | addInputRt _ => .addOutputRts
  | migrationNegotiate _ _ _ => .setMigrationTarget
  | replicaNegotiate _ _ _ => .addReplicas

/-- The configuration of the caller in a request. -/
def NestedRequest.caller : NestedRequest → Peer
  | addInputRt peer => peer
  | migrationNegotiate _ _ peer => peer
  | replicaNegotiate _ _ peer => peer

namespace RpcState

/-- The test at the head of the loops over the addresses of a request. -/
def rejects (state : RpcState) (destAddr : Address) : Negotiation → Prop
  | .addOutputRts =>
    destAddr ∈ state.runtimes .output ∨ destAddr ∈ state.runtimes .input ∨
      destAddr = state.localAddress ∨ destAddr ∈ state.runtimes .replica ∨
      destAddr ∈ state.runtimes .storage ∨ destAddr ∈ state.runtimes .migrationTarget ∨
      destAddr ∈ state.runtimes .migrationSource
  | .setMigrationTarget =>
    destAddr = state.localAddress ∨ destAddr ∈ state.runtimes .migrationTarget ∨
      destAddr ∈ state.runtimes .replica ∨ destAddr ∈ state.runtimes .storage ∨
      destAddr ∈ state.runtimes .input ∨ destAddr ∈ state.runtimes .output
  | .addReplicas =>
    destAddr ∈ state.runtimes .replica ∨ destAddr = state.localAddress ∨
      destAddr ∈ state.runtimes .migrationTarget ∨ destAddr ∈ state.runtimes .migrationSource ∨
      destAddr ∈ state.runtimes .input ∨ destAddr ∈ state.runtimes .output

instance (state : RpcState) (destAddr : Address) (negotiation : Negotiation) :
    Decidable (state.rejects destAddr negotiation) :=
  match negotiation with
  | .addOutputRts | .setMigrationTarget | .addReplicas => inferInstanceAs (Decidable (_ ∨ _))

/-- The addresses of the runtimes of a map, as they are put in a request. -/
def addrs (state : RpcState) (role : Role) : List Address :=
  (state.runtimes role).entries.map fun entry ↦ entry.2.val.address

/-- The request that a caller sends to the peer. -/
def nestedRequest (state : RpcState) : Negotiation → NestedRequest
  | .addOutputRts => .addInputRt state.localRuntime
  | .setMigrationTarget => .migrationNegotiate (state.addrs .input) (state.addrs .output) state.localRuntime
  | .addReplicas => .replicaNegotiate (state.addrs .input) (state.addrs .output) state.localRuntime

/-- What the caller does with a reply that has a configuration in it. -/
def record (state : RpcState) (destAddr : Address) (reply : Peer) : Negotiation → RpcState × Command
  | .addOutputRts => (state.emplace .output destAddr reply, ⟨.addOutputRuntime, reply⟩)
  | .setMigrationTarget => (state.emplace .migrationTarget destAddr reply, ⟨.setMigrationTarget, reply⟩)
  | .addReplicas => (state.emplace .replica reply.val.address reply, ⟨.addReplica, reply⟩)

/-- The state, a command for the worker and the configuration in the reply. -/
structure Outcome where
  state : RpcState
  command : Option Command
  reply : Option Peer

/-- The callee records the caller and answers with its own configuration. -/
def accept (state : RpcState) (role : Role) (operation : RpcOperation) (caller : Peer) : Outcome :=
  ⟨state.emplace role caller.val.address caller, some ⟨operation, caller⟩, some state.localRuntime⟩

/-- The callee answers with an empty reply. -/
def decline (state : RpcState) : Outcome := ⟨state, none, none⟩

def addInputRt (state : RpcState) (inputRuntime : Peer) : Outcome :=
  let inputRuntimeAddr := inputRuntime.val.address
  if inputRuntime ≠ state.localRuntime ∧ inputRuntimeAddr ∉ state.runtimes .input ∧
      inputRuntimeAddr ∉ state.runtimes .output then
    state.accept .input .addInputRuntime inputRuntime
  else
    state.decline

/-- The comparison of neighbours at the head of both negotiations. -/
def sameNeighbours (state : RpcState) (inputRuntimeAddrs outputRuntimeAddrs : List Address) : Prop :=
  ((state.runtimes .input).keys.length = inputRuntimeAddrs.length ∧
      (state.runtimes .output).keys.length = outputRuntimeAddrs.length) ∧
    (∀ compareAddr ∈ inputRuntimeAddrs, compareAddr ∈ state.runtimes .input) ∧
    ∀ compareAddr ∈ outputRuntimeAddrs, compareAddr ∈ state.runtimes .output

instance (state : RpcState) (inputRuntimeAddrs outputRuntimeAddrs : List Address) :
    Decidable (state.sameNeighbours inputRuntimeAddrs outputRuntimeAddrs) :=
  inferInstanceAs (Decidable (_ ∧ _))

/-- The rest of both negotiations, with the map that records the caller. -/
def negotiate (state : RpcState) (role : Role) (operation : RpcOperation)
    (inputRuntimeAddrs outputRuntimeAddrs : List Address) (caller : Peer) : Outcome :=
  if ¬ state.sameNeighbours inputRuntimeAddrs outputRuntimeAddrs then
    state.decline
  else if caller.val.address ∉ state.runtimes role then
    state.accept role operation caller
  else
    state.decline

def migrationNegotiate (state : RpcState) (inputRuntimeAddrs outputRuntimeAddrs : List Address)
    (migrationSource : Peer) : Outcome :=
  state.negotiate .migrationSource .migrationNegotiate inputRuntimeAddrs outputRuntimeAddrs migrationSource

def replicaNegotiate (state : RpcState) (inputRuntimeAddrs outputRuntimeAddrs : List Address)
    (replicationSource : Peer) : Outcome :=
  state.negotiate .storage .addStorage inputRuntimeAddrs outputRuntimeAddrs replicationSource

def handle (state : RpcState) : NestedRequest → Outcome
  | .addInputRt inputRuntime => state.addInputRt inputRuntime
  | .migrationNegotiate inputs outputs migrationSource => state.migrationNegotiate inputs outputs migrationSource
  | .replicaNegotiate inputs outputs replicationSource => state.replicaNegotiate inputs outputs replicationSource

/-- Delete a peer from a map and tell the worker. -/
def forget (state : RpcState) (role : Role) (operation : RpcOperation) (address : Address) :
    RpcState × Option Command :=
  match (state.runtimes role).lookup address with
  | some peer => (state.erase role address, some ⟨operation, peer⟩)
  | none => (state, none)

def deleteOutputRt (state : RpcState) (address : Address) : RpcState × Option Command :=
  state.forget .output .deleteOutputRuntime address

def deleteInputRt (state : RpcState) (address : Address) : RpcState × Option Command :=
  state.forget .input .deleteInputRuntime address

def deleteReplica (state : RpcState) (address : Address) : RpcState × Option Command :=
  state.forget .replica .removeReplica address

def deleteStorage (state : RpcState) (address : Address) : RpcState × Option Command :=
  state.forget .storage .removeStorage address

/-- `DeleteMigrationTarget`, which keeps the peer in `migration_targets_`. -/
def deleteMigrationTarget (state : RpcState) (address : Address) : RpcState × Option Command :=
  match (state.runtimes .migrationTarget).lookup address with
  | some peer => (state, some ⟨.deleteMigrationTarget, peer⟩)
  | none => (state, none)

/-- `DeleteMigrationSource`, which keeps the peer in `migration_sources_`. -/
def deleteMigrationSource (state : RpcState) (address : Address) : RpcState × Option Command :=
  match (state.runtimes .migrationSource).lookup address with
  | some peer => (state, some ⟨.deleteMigrationSource, peer⟩)
  | none => (state, none)

/-! ## What the maps hold -/

@[simp] theorem localRuntime_emplace (state : RpcState) (role : Role) (address : Address) (peer : Peer) :
    (state.emplace role address peer).localRuntime = state.localRuntime := rfl

@[simp] theorem localRuntime_erase (state : RpcState) (role : Role) (address : Address) :
    (state.erase role address).localRuntime = state.localRuntime := rfl

variable {state : RpcState} {role other : Role} {address key : Address}

theorem mem_of_lookup {map : RuntimeMap} {peer : Peer} (hlookup : map.lookup key = some peer) : key ∈ map :=
  AList.lookup_isSome.1 (by rw [hlookup]; rfl)

theorem mem_emplace {peer : Peer} : key ∈ (state.emplace role address peer).runtimes other ↔
      key ∈ state.runtimes other ∨ other = role ∧ key = address := by
  by_cases hrole : other = role
  · subst hrole
    simp only [emplace, update_self, RuntimeMap.emplace, true_and]
    split
    · next hmem => exact ⟨.inl, fun h ↦ h.elim id fun heq ↦ heq ▸ hmem⟩
    · rw [AList.mem_insert, or_comm]
  · simp [emplace, hrole]

theorem mem_erase : key ∈ (state.erase role address).runtimes other ↔
      key ∈ state.runtimes other ∧ ¬ (other = role ∧ key = address) := by
  by_cases hrole : other = role
  · subst hrole
    simp [erase, AList.mem_erase, and_comm]
  · simp [erase, hrole]

theorem lookup_emplace {peer found : Peer}
    (hlookup : ((state.emplace role address peer).runtimes other).lookup key = some found) :
    (state.runtimes other).lookup key = some found ∨ other = role ∧ key = address ∧ found = peer := by
  by_cases hrole : other = role
  · subst hrole
    simp only [emplace, update_self, RuntimeMap.emplace] at hlookup
    split at hlookup
    · exact .inl hlookup
    · by_cases hkey : key = address
      · subst hkey
        rw [AList.lookup_insert, Option.some.injEq] at hlookup
        exact .inr ⟨rfl, rfl, hlookup.symm⟩
      · rw [AList.lookup_insert_ne hkey] at hlookup
        exact .inl hlookup
  · simp only [emplace, update_of_ne hrole] at hlookup
    exact .inl hlookup

theorem lookup_erase {found : Peer}
    (hlookup : ((state.erase role address).runtimes other).lookup key = some found) :
    (state.runtimes other).lookup key = some found := by
  by_cases hrole : other = role
  · subst hrole
    simp only [erase, update_self] at hlookup
    by_cases hkey : key = address
    · subst hkey
      rw [AList.lookup_erase] at hlookup
      cases hlookup
    · rwa [AList.lookup_erase_ne hkey] at hlookup
  · simpa only [erase, update_of_ne hrole] using hlookup

end RpcState

/-- The command that follows the record of a peer in a role. -/
def Role.addOperation : Role → RpcOperation
  | .input => .addInputRuntime
  | .output => .addOutputRuntime
  | .replica => .addReplica
  | .storage => .addStorage
  | .migrationTarget => .setMigrationTarget
  | .migrationSource => .migrationNegotiate

/-- The command that follows a request to delete a peer from a role. -/
def Role.deleteOperation : Role → RpcOperation
  | .input => .deleteInputRuntime
  | .output => .deleteOutputRuntime
  | .replica => .removeReplica
  | .storage => .removeStorage
  | .migrationTarget => .deleteMigrationTarget
  | .migrationSource => .deleteMigrationSource

namespace RpcState

variable (state : RpcState) (negotiation : Negotiation)

@[simp] theorem negotiation_nestedRequest : (state.nestedRequest negotiation).negotiation = negotiation := by
  cases negotiation <;> rfl

@[simp] theorem caller_nestedRequest : (state.nestedRequest negotiation).caller = state.localRuntime := by
  cases negotiation <;> rfl

theorem record_eq {state : RpcState} {destAddr : Address} {reply : Peer} (haddress : reply.val.address = destAddr)
    (negotiation : Negotiation) :
    state.record destAddr reply negotiation =
      (state.emplace negotiation.callerRole destAddr reply, ⟨negotiation.callerRole.addOperation, reply⟩) := by
  subst haddress
  cases negotiation <;> rfl

/-- What the callee checks before it records the caller. -/
def Admits (state : RpcState) : NestedRequest → Prop
  | .addInputRt caller =>
    caller.val.address ∉ state.runtimes .input ∧ caller.val.address ∉ state.runtimes .output
  | .migrationNegotiate inputs outputs caller =>
    state.sameNeighbours inputs outputs ∧ caller.val.address ∉ state.runtimes .migrationSource
  | .replicaNegotiate inputs outputs caller =>
    state.sameNeighbours inputs outputs ∧ caller.val.address ∉ state.runtimes .storage

theorem Admits.not_recorded {state : RpcState} {request : NestedRequest} (hadmits : state.Admits request) :
    request.caller.val.address ∉ state.runtimes request.negotiation.calleeRole := by
  cases request with
  | addInputRt => exact hadmits.1
  | migrationNegotiate => exact hadmits.2
  | replicaNegotiate => exact hadmits.2

/-- A nested request is declined, or the caller is recorded in its role. -/
theorem handle_cases (request : NestedRequest) : state.handle request = state.decline ∨
      state.Admits request ∧ state.handle request =
        state.accept request.negotiation.calleeRole request.negotiation.calleeRole.addOperation request.caller := by
  cases request with
  | addInputRt =>
    simp only [handle, addInputRt]
    split_ifs with hadmits
    · exact .inr ⟨hadmits.2, rfl⟩
    · exact .inl rfl
  | migrationNegotiate =>
    simp only [handle, migrationNegotiate, negotiate]
    split_ifs with hsame hnew
    · exact .inl rfl
    · exact .inr ⟨⟨hsame, hnew⟩, rfl⟩
    · exact .inl rfl
  | replicaNegotiate =>
    simp only [handle, replicaNegotiate, negotiate]
    split_ifs with hsame hnew
    · exact .inl rfl
    · exact .inr ⟨⟨hsame, hnew⟩, rfl⟩
    · exact .inl rfl

end RpcState

end NfvActor.Control
