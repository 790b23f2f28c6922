import Mathlib.Tactic
import NfvActor.Control.Rpc
import NfvActor.Foundation.Transition

/-!
# The control plane

The RPC threads of any number of runtimes, driven by a controller and calling each other. A thread handles one
RPC at a time, and nothing while it waits for a peer. A nested request that the caller gave up is handled all
the same, and its reply is lost.
-/

namespace NfvActor.Control

open NfvActor.Foundation
open Function
open Option (bind_eq_some_iff map_eq_some_iff)

/-- The requests of the controller. -/
inductive ControlRequest where
  | negotiate (negotiation : Negotiation) (addrs : List Address)
  | deleteOutputRt (address : Address)
  | deleteInputRt (address : Address)
  | deleteMigrationTarget (address : Address)
  | deleteMigrationSource (address : Address)
  | deleteReplica (address : Address)
  | deleteStorage (address : Address)
deriving DecidableEq

/-- An RPC thread is free, at the head of the loop over the addresses of a request, or waits for an answer. -/
inductive Activity where
  | idle
  | serving (negotiation : Negotiation) (addrs : List Address)
  | waiting (negotiation : Negotiation) (destAddr : Address) (addrs : List Address) (call : ℕ)
deriving DecidableEq

structure Node where
  rpc : RpcState
  activity : Activity

/-- How far the callee has got with a call. -/
inductive CallStatus where
  | pending
  | answered (reply : Option Peer)
deriving DecidableEq

/-- A nested RPC, with whether the caller gave it up. -/
structure Call where
  caller : Address
  destAddr : Address
  request : NestedRequest
  status : CallStatus
  abandoned : Bool

/-- The runtimes by their addresses, and all calls made between them. -/
structure Plane where
  nodes : Address → Option Node
  calls : List Call

/-- The steps of the control plane. -/
inductive ControlInput where
  | request (address : Address) (request : ControlRequest)
  | iterate (address : Address)
  | execute (call : ℕ)
  | resume (address : Address)
  | giveUp (address : Address)
deriving DecidableEq

/-- A command for the worker of the runtime at an address. -/
abbrev Emission := Option (Address × Command)

/-- A request that is handled without a call. -/
def RpcState.delete (state : RpcState) : ControlRequest → RpcState × Option Command
  | .negotiate _ _ => (state, none)
  | .deleteOutputRt address => state.deleteOutputRt address
  | .deleteInputRt address => state.deleteInputRt address
  | .deleteMigrationTarget address => state.deleteMigrationTarget address
  | .deleteMigrationSource address => state.deleteMigrationSource address
  | .deleteReplica address => state.deleteReplica address
  | .deleteStorage address => state.deleteStorage address

namespace Plane

variable (plane : Plane)

def setNode (address : Address) (node : Node) : Plane :=
  { plane with nodes := update plane.nodes address (some node) }

/-- A free thread takes a request of the controller. -/
def request (address : Address) (req : ControlRequest) : Option (Plane × Emission) := do
  let node ← plane.nodes address
  guard (node.activity = .idle)
  match req with
  | .negotiate negotiation addrs =>
    some (plane.setNode address { node with activity := .serving negotiation addrs }, none)
  | req =>
    let (rpc, command) := node.rpc.delete req
    some (plane.setNode address { node with rpc := rpc }, command.map (address, ·))

/-- One round of the loop up to the call. `SetMigrationTarget` returns at an address it rejects, the other two
go on. -/
def iterate (address : Address) : Option (Plane × Emission) := do
  let node ← plane.nodes address
  match node.activity with
  | .serving _ [] => some (plane.setNode address { node with activity := .idle }, none)
  | .serving negotiation (destAddr :: addrs) =>
    if node.rpc.rejects destAddr negotiation then
      let activity := match negotiation with
        | .setMigrationTarget => .idle
        | .addOutputRts | .addReplicas => .serving negotiation addrs
      some (plane.setNode address { node with activity := activity }, none)
    else
      let call : Call := ⟨address, destAddr, node.rpc.nestedRequest negotiation, .pending, false⟩
      let waiting := { node with activity := .waiting negotiation destAddr addrs plane.calls.length }
      some ({ plane.setNode address waiting with calls := plane.calls ++ [call] }, none)
  | _ => none

/-- A free thread handles a nested request. -/
def execute (index : ℕ) : Option (Plane × Emission) := do
  let call ← plane.calls[index]?
  guard (call.status = .pending)
  let node ← plane.nodes call.destAddr
  guard (node.activity = .idle)
  let outcome := node.rpc.handle call.request
  let answered := { call with status := .answered outcome.reply }
  some ({ plane.setNode call.destAddr { node with rpc := outcome.state } with
          calls := plane.calls.set index answered }, outcome.command.map (call.destAddr, ·))

/-- The caller gets the answer to its call. -/
def resume (address : Address) : Option (Plane × Emission) := do
  let node ← plane.nodes address
  match node.activity with
  | .waiting negotiation destAddr addrs index =>
    let call ← plane.calls[index]?
    match call.status with
    | .pending => none
    | .answered none =>
      some (plane.setNode address { node with activity := .serving negotiation addrs }, none)
    | .answered (some reply) =>
      let (rpc, command) := node.rpc.record destAddr reply negotiation
      some (plane.setNode address ⟨rpc, .serving negotiation addrs⟩, some (address, command))
  | _ => none

/-- The deadline of a call passes, its reply is lost, or the peer cannot be reached. -/
def giveUp (address : Address) : Option (Plane × Emission) := do
  let node ← plane.nodes address
  match node.activity with
  | .waiting negotiation _ addrs index =>
    let call ← plane.calls[index]?
    let resumed := { node with activity := .serving negotiation addrs }
    some ({ plane.setNode address resumed with calls := plane.calls.set index { call with abandoned := true } },
      none)
  | _ => none

def emit : ControlInput → Option (Plane × Emission)
  | .request address req => plane.request address req
  | .iterate address => plane.iterate address
  | .execute call => plane.execute call
  | .resume address => plane.resume address
  | .giveUp address => plane.giveUp address

def step (input : ControlInput) : Option Plane := (plane.emit input).map Prod.fst

end Plane

/-- The call that a thread waits for. -/
def Activity.call : Activity → Option ℕ
  | idle | serving _ _ => none
  | waiting _ _ _ index => some index

/-- The map from which a request deletes a peer. -/
def ControlRequest.forgets : ControlRequest → Option (Role × Address)
  | .deleteOutputRt address => some (.output, address)
  | .deleteInputRt address => some (.input, address)
  | .deleteReplica address => some (.replica, address)
  | .deleteStorage address => some (.storage, address)
  | .deleteMigrationTarget _ | .deleteMigrationSource _ | .negotiate _ _ => none

/-- The map in which a request for the worker only looks for a peer. -/
def ControlRequest.keeps : ControlRequest → Option (Role × Address)
  | .deleteMigrationTarget address => some (.migrationTarget, address)
  | .deleteMigrationSource address => some (.migrationSource, address)
  | .deleteOutputRt _ | .deleteInputRt _ | .deleteReplica _ | .deleteStorage _ | .negotiate _ _ => none

/-- The steps of the control plane by what they change. -/
inductive Plane.Turn (plane : Plane) : ControlInput → Plane → Emission → Prop
  | shift {address : Address} {node : Node} {input : ControlInput} (activity : Activity)
      (hnode : plane.nodes address = some node) (hfree : node.activity.call = none)
      (hfree' : activity.call = none) :
      Turn plane input (plane.setNode address { node with activity := activity }) none
  | forget {address target : Address} {node : Node} {req : ControlRequest} {role : Role}
      {peer : Peer}
      (hnode : plane.nodes address = some node) (hidle : node.activity = .idle)
      (hrole : req.forgets = some (role, target))
      (hlookup : (node.rpc.runtimes role).lookup target = some peer) :
      Turn plane (.request address req)
        (plane.setNode address { node with rpc := node.rpc.erase role target })
        (some (address, ⟨role.deleteOperation, peer⟩))
  | keep {address target : Address} {node : Node} {req : ControlRequest} {role : Role}
      {peer : Peer}
      (hnode : plane.nodes address = some node) (hidle : node.activity = .idle)
      (hrole : req.keeps = some (role, target))
      (hlookup : (node.rpc.runtimes role).lookup target = some peer) :
      Turn plane (.request address req) (plane.setNode address node) (some (address, ⟨role.deleteOperation, peer⟩))
  | call {address destAddr : Address} {node : Node} {negotiation : Negotiation} {addrs : List Address}
      (hnode : plane.nodes address = some node)
      (hserving : node.activity = .serving negotiation (destAddr :: addrs))
      (hfits : ¬ node.rpc.rejects destAddr negotiation) :
      Turn plane (.iterate address)
        { plane.setNode address
            { node with activity := .waiting negotiation destAddr addrs plane.calls.length } with
          calls := plane.calls ++
            [⟨address, destAddr, node.rpc.nestedRequest negotiation, .pending, false⟩] } none
  | decline {index : ℕ} {call : Call} {node : Node}
      (hcall : plane.calls[index]? = some call) (hpending : call.status = .pending)
      (hnode : plane.nodes call.destAddr = some node) (hidle : node.activity = .idle) :
      Turn plane (.execute index)
        { plane.setNode call.destAddr node with
          calls := plane.calls.set index { call with status := .answered none } } none
  | accept {index : ℕ} {call : Call} {node : Node}
      (hcall : plane.calls[index]? = some call) (hpending : call.status = .pending)
      (hnode : plane.nodes call.destAddr = some node) (hidle : node.activity = .idle)
      (hadmits : node.rpc.Admits call.request) :
      Turn plane (.execute index)
        { plane.setNode call.destAddr
            { node with
              rpc := node.rpc.emplace call.request.negotiation.calleeRole call.request.caller.val.address
                call.request.caller } with
          calls := plane.calls.set index { call with status := .answered (some node.rpc.localRuntime) } }
        (some (call.destAddr, ⟨call.request.negotiation.calleeRole.addOperation, call.request.caller⟩))
  | resume {address destAddr : Address} {node : Node} {negotiation : Negotiation} {addrs : List Address}
      {index : ℕ} {call : Call}
      (hnode : plane.nodes address = some node)
      (hwaiting : node.activity = .waiting negotiation destAddr addrs index)
      (hcall : plane.calls[index]? = some call) (hempty : call.status = .answered none) :
      Turn plane (.resume address)
        (plane.setNode address { node with activity := .serving negotiation addrs }) none
  | record {address destAddr : Address} {node : Node} {negotiation : Negotiation} {addrs : List Address}
      {index : ℕ} {call : Call} {reply : Peer}
      (hnode : plane.nodes address = some node)
      (hwaiting : node.activity = .waiting negotiation destAddr addrs index)
      (hcall : plane.calls[index]? = some call) (hreply : call.status = .answered (some reply)) :
      Turn plane (.resume address)
        (plane.setNode address ⟨(node.rpc.record destAddr reply negotiation).1, .serving negotiation addrs⟩)
        (some (address, (node.rpc.record destAddr reply negotiation).2))
  | giveUp {address destAddr : Address} {node : Node} {negotiation : Negotiation} {addrs : List Address}
      {index : ℕ} {call : Call}
      (hnode : plane.nodes address = some node)
      (hwaiting : node.activity = .waiting negotiation destAddr addrs index)
      (hcall : plane.calls[index]? = some call) :
      Turn plane (.giveUp address)
        { plane.setNode address { node with activity := .serving negotiation addrs } with
          calls := plane.calls.set index { call with abandoned := true } } none

namespace RpcState

/-- A delete request finds the peer or does nothing. -/
theorem delete_cases (state : RpcState) (req : ControlRequest) : state.delete req = (state, none) ∨
      (∃ role target peer, req.forgets = some (role, target) ∧
        (state.runtimes role).lookup target = some peer ∧
        state.delete req = (state.erase role target, some ⟨role.deleteOperation, peer⟩)) ∨
      ∃ role target peer, req.keeps = some (role, target) ∧ (state.runtimes role).lookup target = some peer ∧
        state.delete req = (state, some ⟨role.deleteOperation, peer⟩) := by
  have hforget (role : Role) (operation : RpcOperation) (target : Address) :
      state.forget role operation target = (state, none) ∨
        ∃ peer, (state.runtimes role).lookup target = some peer ∧
          state.forget role operation target = (state.erase role target, some ⟨operation, peer⟩) := by
    cases hlookup : (state.runtimes role).lookup target with
    | none => exact .inl (by simp [forget, hlookup])
    | some peer => exact .inr ⟨peer, rfl, by simp [forget, hlookup]⟩
  cases req with
  | negotiate => exact .inl rfl
  | deleteOutputRt target =>
    exact (hforget .output .deleteOutputRuntime target).imp id fun ⟨peer, hlookup, heq⟩ ↦
      .inl ⟨_, target, peer, rfl, hlookup, heq⟩
  | deleteInputRt target =>
    exact (hforget .input .deleteInputRuntime target).imp id fun ⟨peer, hlookup, heq⟩ ↦
      .inl ⟨_, target, peer, rfl, hlookup, heq⟩
  | deleteReplica target =>
    exact (hforget .replica .removeReplica target).imp id fun ⟨peer, hlookup, heq⟩ ↦
      .inl ⟨_, target, peer, rfl, hlookup, heq⟩
  | deleteStorage target =>
    exact (hforget .storage .removeStorage target).imp id fun ⟨peer, hlookup, heq⟩ ↦
      .inl ⟨_, target, peer, rfl, hlookup, heq⟩
  | deleteMigrationTarget target =>
    cases hlookup : (state.runtimes .migrationTarget).lookup target with
    | none => exact .inl (by simp [delete, deleteMigrationTarget, hlookup])
    | some peer =>
      exact .inr (.inr ⟨_, target, peer, rfl, hlookup,
        by simp [delete, deleteMigrationTarget, hlookup, Role.deleteOperation]⟩)
  | deleteMigrationSource target =>
    cases hlookup : (state.runtimes .migrationSource).lookup target with
    | none => exact .inl (by simp [delete, deleteMigrationSource, hlookup])
    | some peer =>
      exact .inr (.inr ⟨_, target, peer, rfl, hlookup,
        by simp [delete, deleteMigrationSource, hlookup, Role.deleteOperation]⟩)

end RpcState

namespace Plane

variable {plane plane' : Plane} {emission : Emission} {address : Address}

theorem turn_of_request {req : ControlRequest} (hstep : plane.request address req = some (plane', emission)) :
    plane.Turn (.request address req) plane' emission := by
  simp only [request, Option.bind_eq_bind, bind_eq_some_iff, Option.guard_eq_some'] at hstep
  obtain ⟨node, hnode, _, hidle, hstep⟩ := hstep
  have hfree : node.activity.call = none := by rw [hidle]; rfl
  have hdelete (req : ControlRequest)
      (hstep : some (plane.setNode address { node with rpc := (node.rpc.delete req).1 },
        (node.rpc.delete req).2.map (address, ·)) = some (plane', emission)) :
      plane.Turn (.request address req) plane' emission := by
    cases hstep
    rcases node.rpc.delete_cases req with heq | ⟨role, target, peer, hrole, hlookup, heq⟩ |
      ⟨role, target, peer, hrole, hlookup, heq⟩
    · rw [heq]
      exact .shift node.activity hnode hfree hfree
    · rw [heq]
      exact .forget hnode hidle hrole hlookup
    · rw [heq]
      exact .keep hnode hidle hrole hlookup
  cases req with
  | negotiate =>
    cases hstep
    exact .shift _ hnode hfree rfl
  | _ => exact hdelete _ hstep

theorem turn_of_iterate (hstep : plane.iterate address = some (plane', emission)) :
    plane.Turn (.iterate address) plane' emission := by
  simp only [iterate, Option.bind_eq_bind, bind_eq_some_iff] at hstep
  obtain ⟨node, hnode, hstep⟩ := hstep
  split at hstep
  · next negotiation hactivity =>
    cases hstep
    exact .shift .idle hnode (by rw [hactivity]; rfl) rfl
  · next negotiation destAddr addrs hactivity =>
    split at hstep
    · cases hstep
      refine .shift _ hnode (by rw [hactivity]; rfl) ?_
      cases negotiation <;> rfl
    · next hfits =>
      cases hstep
      exact .call hnode hactivity hfits
  · cases hstep

theorem turn_of_execute {index : ℕ} (hstep : plane.execute index = some (plane', emission)) :
    plane.Turn (.execute index) plane' emission := by
  simp only [execute, Option.bind_eq_bind, bind_eq_some_iff, Option.guard_eq_some'] at hstep
  obtain ⟨call, hcall, _, hpending, node, hnode, _, hidle, hstep⟩ := hstep
  cases hstep
  rcases node.rpc.handle_cases call.request with heq | ⟨hadmits, heq⟩
  · rw [heq]
    exact .decline hcall hpending hnode hidle
  · rw [heq]
    exact .accept hcall hpending hnode hidle hadmits

theorem turn_of_resume (hstep : plane.resume address = some (plane', emission)) :
    plane.Turn (.resume address) plane' emission := by
  simp only [resume, Option.bind_eq_bind, bind_eq_some_iff] at hstep
  obtain ⟨node, hnode, hstep⟩ := hstep
  split at hstep
  · next negotiation destAddr addrs index hwaiting =>
    obtain ⟨call, hcall, hstep⟩ := bind_eq_some_iff.1 hstep
    split at hstep
    · cases hstep
    · next hempty =>
      cases hstep
      exact .resume hnode hwaiting hcall hempty
    · next reply hreply =>
      cases hstep
      exact .record hnode hwaiting hcall hreply
  · cases hstep

theorem turn_of_giveUp (hstep : plane.giveUp address = some (plane', emission)) :
    plane.Turn (.giveUp address) plane' emission := by
  simp only [giveUp, Option.bind_eq_bind, bind_eq_some_iff] at hstep
  obtain ⟨node, hnode, hstep⟩ := hstep
  split at hstep
  · next negotiation destAddr addrs index hwaiting =>
    obtain ⟨call, hcall, hstep⟩ := bind_eq_some_iff.1 hstep
    cases hstep
    exact .giveUp hnode hwaiting hcall
  · cases hstep

/-- Every step of the control plane is one of the listed changes. -/
theorem turn_of_emit {input : ControlInput} (hstep : plane.emit input = some (plane', emission)) :
    plane.Turn input plane' emission := by
  cases input with
  | request => exact turn_of_request hstep
  | iterate => exact turn_of_iterate hstep
  | execute => exact turn_of_execute hstep
  | resume => exact turn_of_resume hstep
  | giveUp => exact turn_of_giveUp hstep

end Plane

/-- The runtimes of a deployment, each under its own address. -/
structure Deployment where
  runtimes : Address → Option Peer
  address_eq : ∀ {address : Address} {peer : Peer}, runtimes address = some peer → peer.val.address = address

namespace Deployment

def bootRpc (peer : Peer) : RpcState := ⟨peer, fun _ ↦ ∅⟩

/-- All threads are free and have recorded nobody. -/
def boot (deployment : Deployment) : Plane :=
  { nodes := fun address ↦ (deployment.runtimes address).map fun peer ↦ ⟨bootRpc peer, .idle⟩
    calls := [] }

/-- All runs of the control plane of a deployment. -/
def system (deployment : Deployment) : TransitionSystem Plane ControlInput where
  init plane := plane = deployment.boot
  step := Plane.step

end Deployment

/-! ## Well-formed planes -/

/-- The neighbours in a request are different, and the caller is not among them. -/
def NestedRequest.Lists (caller : Address) : NestedRequest → Prop
  | .addInputRt _ => True
  | .migrationNegotiate inputs outputs _ | .replicaNegotiate inputs outputs _ =>
    (inputs.Nodup ∧ caller ∉ inputs) ∧ outputs.Nodup ∧ caller ∉ outputs

/-- A call is between two runtimes of the deployment, and its answer is of the callee. -/
structure Call.Formed (deployment : Deployment) (call : Call) : Prop where
  caller : deployment.runtimes call.caller = some call.request.caller
  dest_ne : call.caller ≠ call.destAddr
  reply : ∀ {peer}, call.status = .answered (some peer) → deployment.runtimes call.destAddr = some peer
  lists : call.request.Lists call.caller

/-- A runtime has recorded other runtimes of the deployment under their own addresses. -/
structure RpcState.Formed (deployment : Deployment) (address : Address) (state : RpcState) : Prop where
  own : deployment.runtimes address = some state.localRuntime
  known : ∀ {role key peer}, (state.runtimes role).lookup key = some peer →
    deployment.runtimes key = some peer ∧ key ≠ address

/-- A thread waits for a call of its own, to an address that its checks let pass. -/
structure Plane.Awaits (plane : Plane) (address : Address) (node : Node) (negotiation : Negotiation)
    (destAddr : Address) (index : ℕ) : Prop where
  call : ∃ call, plane.calls[index]? = some call ∧ call.caller = address ∧ call.destAddr = destAddr ∧
    call.request.negotiation = negotiation
  fits : ¬ node.rpc.rejects destAddr negotiation

structure Plane.Formed (deployment : Deployment) (plane : Plane) : Prop where
  node : ∀ {address node}, plane.nodes address = some node → node.rpc.Formed deployment address
  calls : ∀ call ∈ plane.calls, call.Formed deployment
  awaits : ∀ {address node negotiation destAddr addrs index}, plane.nodes address = some node →
    node.activity = .waiting negotiation destAddr addrs index →
    plane.Awaits address node negotiation destAddr index

namespace RpcState.Formed

variable {deployment : Deployment} {address : Address} {state : RpcState}

variable (hformed : state.Formed deployment address)

include hformed

theorem localAddress_eq : state.localAddress = address := deployment.address_eq hformed.own

theorem addrs_eq (role : Role) : state.addrs role = (state.runtimes role).keys := by
  rw [addrs, AList.keys, List.keys]
  refine List.map_congr_left fun entry hentry ↦ ?_
  have hlookup : (state.runtimes role).lookup entry.1 = some entry.2 := AList.mem_lookup_iff.2 hentry
  exact deployment.address_eq (hformed.known hlookup).1

theorem not_mem_self (role : Role) : address ∉ state.runtimes role := by
  intro hmem
  obtain ⟨peer, hlookup⟩ := Option.isSome_iff_exists.1 (AList.lookup_isSome.2 hmem)
  exact (hformed.known hlookup).2 rfl

theorem lists (negotiation : Negotiation) : (state.nestedRequest negotiation).Lists address := by
  have hlist (role : Role) : (state.addrs role).Nodup ∧ address ∉ state.addrs role := by
    rw [hformed.addrs_eq role]
    exact ⟨(state.runtimes role).keys_nodup, hformed.not_mem_self role⟩
  cases negotiation with
  | addOutputRts => trivial
  | setMigrationTarget | addReplicas => exact ⟨hlist .input, hlist .output⟩

theorem emplace {role : Role} {key : Address} {peer : Peer} (hpeer : deployment.runtimes key = some peer)
    (hkey : key ≠ address) : (state.emplace role key peer).Formed deployment address where
  own := hformed.own
  known hlookup := by
    rcases lookup_emplace hlookup with hold | ⟨-, rfl, rfl⟩
    · exact hformed.known hold
    · exact ⟨hpeer, hkey⟩

theorem erase {role : Role} {key : Address} : (state.erase role key).Formed deployment address where
  own := hformed.own
  known hlookup := hformed.known (lookup_erase hlookup)

end RpcState.Formed

theorem Call.Formed.address_eq {deployment : Deployment} {call : Call} (hcall : call.Formed deployment) :
    call.request.caller.val.address = call.caller :=
  deployment.address_eq hcall.caller

theorem RpcState.ne_localAddress_of_fits {state : RpcState} {destAddr : Address} {negotiation : Negotiation}
    (hfits : ¬ state.rejects destAddr negotiation) : destAddr ≠ state.localAddress := by
  intro heq
  cases negotiation <;> simp [rejects, heq] at hfits

namespace Plane

variable {plane : Plane} {deployment : Deployment}

theorem nodes_setNode {address other : Address} {node found : Node}
    (hfound : (plane.setNode address node).nodes other = some found) :
    other = address ∧ found = node ∨ other ≠ address ∧ plane.nodes other = some found := by
  by_cases hother : other = address
  · subst hother
    simp only [setNode, update_self, Option.some.injEq] at hfound
    exact .inl ⟨rfl, hfound.symm⟩
  · simp only [setNode, update_of_ne hother] at hfound
    exact .inr ⟨hother, hfound⟩

/-- Calls are added and answered, but keep their places, ends and requests. -/
def CallsGrow (plane plane' : Plane) : Prop :=
  ∀ (index : ℕ) (call : Call), plane.calls[index]? = some call → ∃ call' : Call,
    plane'.calls[index]? = some call' ∧
    call'.caller = call.caller ∧ call'.destAddr = call.destAddr ∧ call'.request = call.request

variable {plane' : Plane}

theorem callsGrow_of_eq (hcalls : plane'.calls = plane.calls) : plane.CallsGrow plane' :=
  fun _ call hcall ↦ ⟨call, hcalls ▸ hcall, rfl, rfl, rfl⟩

theorem callsGrow_append {call : Call} (hcalls : plane'.calls = plane.calls ++ [call]) :
    plane.CallsGrow plane' := by
  intro index old hold
  refine ⟨old, ?_, rfl, rfl, rfl⟩
  rw [hcalls, List.getElem?_append_left (List.getElem?_eq_some_iff.1 hold).1, hold]

theorem callsGrow_set {index : ℕ} {call call' : Call} (hcalls : plane'.calls = plane.calls.set index call')
    (hcall : plane.calls[index]? = some call) (hcaller : call'.caller = call.caller)
    (hdest : call'.destAddr = call.destAddr) (hrequest : call'.request = call.request) :
    plane.CallsGrow plane' := by
  intro other old hold
  by_cases hother : index = other
  · subst hother
    cases hcall.symm.trans hold
    exact ⟨call', by rw [hcalls, List.getElem?_set_self (List.getElem?_eq_some_iff.1 hcall).1], hcaller,
      hdest, hrequest⟩
  · exact ⟨old, by rw [hcalls, List.getElem?_set_ne hother, hold], rfl, rfl, rfl⟩

theorem Awaits.grow {address destAddr : Address} {node : Node} {negotiation : Negotiation} {index : ℕ}
    (hawaits : plane.Awaits address node negotiation destAddr index) (hgrow : plane.CallsGrow plane') :
    plane'.Awaits address node negotiation destAddr index where
  call := by
    obtain ⟨call, hcall, hcaller, hdest, hnegotiation⟩ := hawaits.call
    obtain ⟨call', hcall', hcaller', hdest', hrequest⟩ := hgrow index call hcall
    exact ⟨call', hcall', hcaller'.trans hcaller, hdest'.trans hdest, hrequest ▸ hnegotiation⟩
  fits := hawaits.fits

namespace Formed

theorem of_update (hformed : plane.Formed deployment) {plane' : Plane} {address : Address} {node : Node}
    (hnodes : plane'.nodes = (plane.setNode address node).nodes) (hnode : node.rpc.Formed deployment address)
    (hcalls : ∀ call ∈ plane'.calls, call.Formed deployment) (hgrow : plane.CallsGrow plane')
    (hawaits : ∀ {negotiation destAddr addrs index},
      node.activity = .waiting negotiation destAddr addrs index →
        plane'.Awaits address node negotiation destAddr index) : plane'.Formed deployment where
  node hfound := by
    rw [hnodes] at hfound
    rcases nodes_setNode hfound with ⟨rfl, rfl⟩ | ⟨-, hold⟩
    · exact hnode
    · exact hformed.node hold
  calls := hcalls
  awaits hfound hwaiting := by
    rw [hnodes] at hfound
    rcases nodes_setNode hfound with ⟨rfl, rfl⟩ | ⟨-, hold⟩
    · exact hawaits hwaiting
    · exact (hformed.awaits hold hwaiting).grow hgrow

variable {index : ℕ} {call : Call} (hformed : plane.Formed deployment)

include hformed

theorem calls_set (hcall : call.Formed deployment) :
    ∀ other ∈ plane.calls.set index call, other.Formed deployment := by
  intro other hother
  rcases List.mem_or_eq_of_mem_set hother with hold | rfl
  · exact hformed.calls other hold
  · exact hcall

/-- The answer a thread waits for comes from the runtime it called. -/
theorem reply_of_awaits {address destAddr : Address} {node : Node} {negotiation : Negotiation}
    {addrs : List Address} {reply : Peer} (hnode : plane.nodes address = some node)
    (hwaiting : node.activity = .waiting negotiation destAddr addrs index)
    (hcall : plane.calls[index]? = some call) (hreply : call.status = .answered (some reply)) :
    deployment.runtimes destAddr = some reply := by
  obtain ⟨awaited, hawaited, -, rfl, -⟩ := (hformed.awaits hnode hwaiting).call
  cases hcall.symm.trans hawaited
  exact (hformed.calls call (List.mem_of_getElem? hcall)).reply hreply

theorem call_of_getElem? (hcall : plane.calls[index]? = some call) : call.Formed deployment :=
  hformed.calls call (List.mem_of_getElem? hcall)

theorem turn {input : ControlInput} {plane' : Plane} {emission : Emission}
    (hturn : plane.Turn input plane' emission) : plane'.Formed deployment := by
  cases hturn with
  | shift activity hnode _ hfree' =>
    have hrpc := hformed.node hnode
    refine hformed.of_update rfl hrpc hformed.calls (callsGrow_of_eq rfl) fun hwaiting ↦ ?_
    rw [show activity = _ from hwaiting] at hfree'
    exact absurd hfree' (by simp [Activity.call])
  | forget hnode hidle =>
    refine hformed.of_update rfl (hformed.node hnode).erase hformed.calls (callsGrow_of_eq rfl) fun hwaiting ↦ ?_
    cases hidle.symm.trans hwaiting
  | keep hnode hidle =>
    refine hformed.of_update rfl (hformed.node hnode) hformed.calls (callsGrow_of_eq rfl) fun hwaiting ↦ ?_
    cases hidle.symm.trans hwaiting
  | call hnode _ hfits =>
    have hrpc := hformed.node hnode
    refine hformed.of_update rfl hrpc ?_ (callsGrow_append rfl) fun hwaiting ↦ ?_
    · intro call hcall
      rcases List.mem_append.1 hcall with hold | hnew
      · exact hformed.calls call hold
      · obtain rfl := List.mem_singleton.1 hnew
        refine ⟨?_, ?_, fun hreply ↦ absurd hreply (by simp), hrpc.lists _⟩
        · rw [RpcState.caller_nestedRequest]
          exact hrpc.own
        · rw [← hrpc.localAddress_eq]
          exact (RpcState.ne_localAddress_of_fits hfits).symm
    · obtain ⟨rfl, rfl, rfl, rfl⟩ := Activity.waiting.inj hwaiting
      refine ⟨⟨_, List.getElem?_concat_length, rfl, rfl, ?_⟩, hfits⟩
      exact RpcState.negotiation_nestedRequest _ _
  | @decline _ _ _ hcall _ hnode hidle =>
    have hold := hformed.call_of_getElem? hcall
    refine hformed.of_update rfl (hformed.node hnode) (hformed.calls_set ?_)
      (callsGrow_set rfl hcall rfl rfl rfl) fun hwaiting ↦ absurd (hidle.symm.trans hwaiting) (by simp)
    exact ⟨hold.caller, hold.dest_ne, fun hreply ↦ absurd hreply (by simp), hold.lists⟩
  | @accept _ _ _ hcall _ hnode hidle =>
    have hold := hformed.call_of_getElem? hcall
    have hrpc := hformed.node hnode
    refine hformed.of_update rfl (hrpc.emplace ?_ ?_) (hformed.calls_set ?_)
      (callsGrow_set rfl hcall rfl rfl rfl) fun hwaiting ↦ absurd (hidle.symm.trans hwaiting) (by simp)
    · rw [hold.address_eq]
      exact hold.caller
    · rw [hold.address_eq]
      exact hold.dest_ne
    · refine ⟨hold.caller, hold.dest_ne, fun hreply ↦ ?_, hold.lists⟩
      cases CallStatus.answered.inj hreply
      exact hrpc.own
  | resume hnode =>
    have hrpc := hformed.node hnode
    exact hformed.of_update rfl hrpc hformed.calls (callsGrow_of_eq rfl)
      fun hserving ↦ absurd hserving (by simp)
  | @record _ _ _ _ _ _ _ _ hnode hwaiting hcall hreply =>
    have hrpc := hformed.node hnode
    have hdest := hformed.reply_of_awaits hnode hwaiting hcall hreply
    refine hformed.of_update rfl ?_ hformed.calls (callsGrow_of_eq rfl)
      fun hserving ↦ absurd hserving (by simp)
    rw [RpcState.record_eq (deployment.address_eq hdest)]
    refine hrpc.emplace hdest ?_
    rw [← hrpc.localAddress_eq]
    exact RpcState.ne_localAddress_of_fits (hformed.awaits hnode hwaiting).fits
  | @giveUp _ _ _ _ _ _ _ hnode _ hcall =>
    have hold := hformed.call_of_getElem? hcall
    have hrpc := hformed.node hnode
    refine hformed.of_update rfl hrpc (hformed.calls_set ?_)
      (callsGrow_set rfl hcall rfl rfl rfl) fun hserving ↦ absurd hserving (by simp)
    exact ⟨hold.caller, hold.dest_ne, hold.reply, hold.lists⟩

omit hformed

theorem boot (deployment : Deployment) : deployment.boot.Formed deployment where
  node hnode := by
    obtain ⟨peer, hpeer, rfl⟩ := map_eq_some_iff.1 hnode
    exact ⟨hpeer, fun hlookup ↦ absurd hlookup (by simp [Deployment.bootRpc])⟩
  calls call hcall := absurd hcall (List.not_mem_nil)
  awaits hnode hwaiting := by
    obtain ⟨peer, hpeer, rfl⟩ := map_eq_some_iff.1 hnode
    cases hwaiting

end Formed

end Plane

end NfvActor.Control
