import Mathlib.Tactic
import NfvActor.Control.Roles

/-!
# Lost replies

A callee records the caller before it replies, and a request that it has already served gets an empty reply. So
when a reply is lost, the two runtimes disagree, and no repetition of the request changes that.
-/

namespace NfvActor.Control

open NfvActor.Foundation
open Option (bind_eq_some_iff map_eq_some_iff)

/-- The callee has recorded the caller and answered with its configuration. -/
def Call.Affirmed (call : Call) (negotiation : Negotiation) (caller callee : Address) : Prop :=
  (call.caller = caller ∧ call.destAddr = callee ∧ call.request.negotiation = negotiation) ∧
    ∃ reply, call.status = .answered (some reply)

namespace Plane

/-- Some call satisfies a condition on its place and itself. -/
def SomeCall (plane : Plane) (condition : ℕ → Call → Prop) : Prop :=
  ∃ (index : ℕ) (call : Call), plane.calls[index]? = some call ∧ condition index call

variable {condition : ℕ → Call → Prop} {call : Call}

theorem someCall_congr {plane : Plane} {condition' : ℕ → Call → Prop}
    (hcondition : ∀ index call, plane.calls[index]? = some call → (condition index call ↔ condition' index call)) :
    plane.SomeCall condition ↔ plane.SomeCall condition' := by
  constructor
  · rintro ⟨index, call, hcall, hholds⟩
    exact ⟨index, call, hcall, (hcondition index call hcall).1 hholds⟩
  · rintro ⟨index, call, hcall, hholds⟩
    exact ⟨index, call, hcall, (hcondition index call hcall).2 hholds⟩

variable {plane plane' : Plane}

theorem someCall_at {index : ℕ} (hcalls : ∀ other, other ≠ index → plane'.calls[other]? = plane.calls[other]?) :
    plane'.SomeCall condition ↔ (∃ call ∈ plane'.calls[index]?, condition index call) ∨
      plane.SomeCall fun other call ↦ other ≠ index ∧ condition other call := by
  constructor
  · rintro ⟨other, call, hcall, hholds⟩
    by_cases hother : other = index
    · exact .inl ⟨call, hother ▸ hcall, hother ▸ hholds⟩
    · exact .inr ⟨other, call, hcalls other hother ▸ hcall, hother, hholds⟩
  · rintro (⟨call, hcall, hholds⟩ | ⟨other, call, hcall, hother, hholds⟩)
    · exact ⟨index, call, hcall, hholds⟩
    · exact ⟨other, call, (hcalls other hother).trans hcall, hholds⟩

/-- The runs without deletes. -/
def OnlyAdds (_ : Plane) : ControlInput → Prop
  | .request _ (.negotiate _ _) | .iterate _ | .execute _ | .resume _ | .giveUp _ => True
  | .request _ _ => False

theorem OnlyAdds.not_delete {address : Address} {req : ControlRequest}
    (hadds : plane.OnlyAdds (.request address req)) : req.forgets = none ∧ req.keeps = none := by
  cases req with
  | negotiate => exact ⟨rfl, rfl⟩
  | _ => exact absurd hadds (by simp [OnlyAdds])

/-- The callers that a runtime has recorded are those whose calls it affirmed. -/
def CalleeSide (plane : Plane) (address : Address) (node : Node) : Prop :=
  ∀ negotiation caller, caller ∈ node.rpc.runtimes negotiation.calleeRole ↔
    plane.SomeCall fun _ call ↦ call.Affirmed negotiation caller address

/-- The callees recorded are those that affirmed a call which was not given up and is not awaited. -/
def CallerSide (plane : Plane) (address : Address) (node : Node) : Prop :=
  ∀ negotiation callee, callee ∈ node.rpc.runtimes negotiation.callerRole ↔
    plane.SomeCall fun index call ↦ call.Affirmed negotiation address callee ∧ call.abandoned = false ∧
      node.activity.call ≠ some index

structure Accounted (plane : Plane) : Prop where
  callee : ∀ {address node}, plane.nodes address = some node → plane.CalleeSide address node
  caller : ∀ {address node}, plane.nodes address = some node → plane.CallerSide address node
  once : ∀ {index index' : ℕ} {call call' : Call} {negotiation caller callee},
    plane.calls[index]? = some call → plane.calls[index']? = some call' →
    call.Affirmed negotiation caller callee → call'.Affirmed negotiation caller callee → index = index'
  waiting : ∀ {address node index} {call : Call}, plane.nodes address = some node →
    node.activity.call = some index → plane.calls[index]? = some call → call.abandoned = false
  pending : ∀ {node index} {call : Call}, plane.calls[index]? = some call → call.status = .pending →
    call.abandoned = false → plane.nodes call.caller = some node → node.activity.call = some index

end Plane

theorem Negotiation.calleeRole_injective : Function.Injective Negotiation.calleeRole := by
  intro left right heq
  cases left <;> cases right <;> first | rfl | exact absurd heq (by decide)

theorem Negotiation.callerRole_injective : Function.Injective Negotiation.callerRole := by
  intro left right heq
  cases left <;> cases right <;> first | rfl | exact absurd heq (by decide)

theorem Negotiation.callerRole_ne_calleeRole (left right : Negotiation) : left.callerRole ≠ right.calleeRole := by
  cases left <;> cases right <;> decide

namespace Plane

variable {plane plane' : Plane} {deployment : Deployment} {input : ControlInput} {emission : Emission}
  {address caller callee : Address} {node node' : Node} {index : ℕ} {call : Call} {negotiation : Negotiation}
  {found : Node} {other : Address}

/-- What a step does to one thread and one call; without deletes, a map only changes when a peer is recorded. -/
inductive Stage (adds : Prop) (address : Address) (node : Node) (index : ℕ) :
    Option Call → Node → Option Call → Prop
  | rest {found : Option Call} {node' : Node} (hrpc : adds → node'.rpc = node.rpc)
      (hfree : node.activity.call = none) (hfree' : node'.activity.call = none) :
      Stage adds address node index found node' found
  | call {call : Call} {activity : Activity} (hfree : node.activity.call = none)
      (hwaits : activity.call = some index) (hcaller : call.caller = address)
      (hpending : call.status = .pending) (hopen : call.abandoned = false) :
      Stage adds address node index none ⟨node.rpc, activity⟩ (some call)
  | decline {call : Call} (hfree : node.activity.call = none) (hpending : call.status = .pending) :
      Stage adds address node index (some call) node (some { call with status := .answered none })
  | accept {call : Call} {peer reply : Peer} (hfree : node.activity.call = none)
      (hpending : call.status = .pending) (hdest : call.destAddr = address) (hne : call.caller ≠ address)
      (hnew : call.caller ∉ node.rpc.runtimes call.request.negotiation.calleeRole) :
      Stage adds address node index (some call)
        ⟨node.rpc.emplace call.request.negotiation.calleeRole call.caller peer, node.activity⟩
        (some { call with status := .answered (some reply) })
  | resume {call : Call} {activity : Activity} (hwaits : node.activity.call = some index)
      (hempty : call.status = .answered none) (hfree' : activity.call = none) :
      Stage adds address node index (some call) ⟨node.rpc, activity⟩ (some call)
  | record {call : Call} {reply : Peer} {activity : Activity} (hwaits : node.activity.call = some index)
      (hreply : call.status = .answered (some reply)) (hcaller : call.caller = address)
      (hfree' : activity.call = none) :
      Stage adds address node index (some call)
        ⟨node.rpc.emplace call.request.negotiation.callerRole call.destAddr reply, activity⟩ (some call)
  | giveUp {call : Call} {activity : Activity} (hwaits : node.activity.call = some index)
      (hcaller : call.caller = address) (hfree' : activity.call = none) :
      Stage adds address node index (some call) ⟨node.rpc, activity⟩ (some { call with abandoned := true })

/-- A step moves one thread and one call on, and leaves all others alone. -/
structure Moves (adds : Prop) (plane plane' : Plane) (address : Address) (node node' : Node) (index : ℕ) :
    Prop where
  at_address : plane.nodes address = some node
  nodes : plane'.nodes = (plane.setNode address node').nodes
  calls : ∀ other, other ≠ index → plane'.calls[other]? = plane.calls[other]?
  stage : Stage adds address node index plane.calls[index]? node' plane'.calls[index]?

theorem Turn.moves (hformed : plane.Formed deployment) (hturn : plane.Turn input plane' emission) :
    ∃ address node node' index, Moves (plane.OnlyAdds input) plane plane' address node node' index := by
  have hset {call call' : Call} {index : ℕ} (hcall : plane.calls[index]? = some call) :
      (plane.calls.set index call')[index]? = some call' :=
    List.getElem?_set_self (List.getElem?_eq_some_iff.1 hcall).1
  have hrest {call' : Call} {index : ℕ} (other : ℕ) (hother : other ≠ index) :
      (plane.calls.set index call')[other]? = plane.calls[other]? := List.getElem?_set_ne hother.symm
  cases hturn with
  | shift _ hnode hfree hfree' =>
    exact ⟨_, _, _, 0, hnode, rfl, fun _ _ ↦ rfl, .rest (fun _ ↦ rfl) hfree hfree'⟩
  | forget hnode hidle hrole =>
    refine ⟨_, _, _, 0, hnode, rfl, fun _ _ ↦ rfl, .rest (fun hadds ↦ ?_) ?_ ?_⟩
    · exact absurd hrole (by simp [hadds.not_delete.1])
    all_goals simp [hidle, Activity.call]
  | keep hnode hidle =>
    exact ⟨_, _, _, 0, hnode, rfl, fun _ _ ↦ rfl, .rest (fun _ ↦ rfl) (by simp [hidle, Activity.call])
      (by simp [hidle, Activity.call])⟩
  | call hnode hserving =>
    refine ⟨_, _, _, plane.calls.length, hnode, rfl, fun other hother ↦ ?_, ?_⟩
    · rw [List.getElem?_append, List.getElem?_singleton]
      split_ifs <;> first | rfl | (rw [List.getElem?_eq_none (by omega)]; try omega)
    · rw [List.getElem?_concat_length, List.getElem?_eq_none le_rfl]
      exact .call (by simp [hserving, Activity.call]) rfl rfl rfl rfl
  | decline hcall hpending hnode hidle =>
    refine ⟨_, _, _, _, hnode, rfl, hrest, ?_⟩
    rw [hset hcall, hcall]
    exact .decline (by simp [hidle, Activity.call]) hpending
  | accept hcall hpending hnode hidle hadmits =>
    have hown := hformed.call_of_getElem? hcall
    have hnew := hadmits.not_recorded
    refine ⟨_, _, _, _, hnode, rfl, hrest, ?_⟩
    rw [hset hcall, hcall]
    rw [hown.address_eq] at hnew ⊢
    exact .accept (by simp [hidle, Activity.call]) hpending rfl hown.dest_ne hnew
  | @resume _ _ _ _ _ index _ hnode hwaiting hcall hempty =>
    refine ⟨_, _, _, index, hnode, rfl, fun _ _ ↦ rfl, ?_⟩
    change Stage _ _ _ index plane.calls[index]? _ plane.calls[index]?
    rw [hcall]
    exact .resume (by rw [hwaiting]; rfl) hempty rfl
  | @record _ _ _ _ _ index _ _ hnode hwaiting hcall hreply =>
    obtain ⟨_, hawaited, hcaller, hdest, hnegotiation⟩ := (hformed.awaits hnode hwaiting).call
    cases hcall.symm.trans hawaited
    have hpeer := deployment.address_eq (hformed.reply_of_awaits hnode hwaiting hcall hreply)
    refine ⟨_, _, _, index, hnode, rfl, fun _ _ ↦ rfl, ?_⟩
    change Stage _ _ _ index plane.calls[index]? _ plane.calls[index]?
    rw [hcall, RpcState.record_eq hpeer, ← hdest, ← hnegotiation]
    exact .record (by rw [hwaiting]; rfl) hreply hcaller rfl
  | giveUp hnode hwaiting hcall =>
    obtain ⟨_, hawaited, hcaller, -⟩ := (hformed.awaits hnode hwaiting).call
    cases hcall.symm.trans hawaited
    refine ⟨_, _, _, _, hnode, rfl, hrest, ?_⟩
    rw [hset hcall, hcall]
    exact .giveUp (by rw [hwaiting]; rfl) hcaller rfl

namespace Stage

variable {adds : Prop} {before after : Option Call}

variable (hstage : Stage adds address node index before node' after)

include hstage

theorem ne_waits {other : ℕ} (hother : other ≠ index) :
    node.activity.call ≠ some other ∧ node'.activity.call ≠ some other := by
  cases hstage <;> simp_all [Ne.symm hother]

/-- A callee affirms a call when it records its caller. -/
theorem affirmed_iff (hadds : adds) (negotiation : Negotiation) (caller callee : Address) :
    (∃ call ∈ after, call.Affirmed negotiation caller callee) ↔
      (∃ call ∈ before, call.Affirmed negotiation caller callee) ∨ (callee = address ∧
        caller ∈ node'.rpc.runtimes negotiation.calleeRole ∧ caller ∉ node.rpc.runtimes negotiation.calleeRole) := by
  cases hstage with
  | rest hrpc => simp [hrpc hadds]
  | call _ _ _ hpending => simp [Call.Affirmed, hpending]
  | decline _ hpending => simp [Call.Affirmed, hpending]
  | accept _ hpending hdest _ hnew =>
    have hrole (other : Negotiation) :=
      (Negotiation.calleeRole_injective.eq_iff (a := negotiation) (b := other))
    simp only [Call.Affirmed, hpending, RpcState.mem_emplace, Option.mem_some_iff, exists_eq_left', hrole]
    grind
  | record => simp [RpcState.mem_emplace, (Negotiation.callerRole_ne_calleeRole _ _).symm]
  | resume | giveUp => simp [Call.Affirmed]

theorem callee_subset (hadds : adds) (hmem : caller ∈ node.rpc.runtimes negotiation.calleeRole) :
    caller ∈ node'.rpc.runtimes negotiation.calleeRole := by
  cases hstage with
  | rest hrpc => rwa [hrpc hadds]
  | accept | record => exact RpcState.mem_emplace.2 (.inl hmem)
  | _ => exact hmem

theorem open_of_waits (hwaits : node'.activity.call = some index) (hcall : after = some call) :
    call.abandoned = false := by
  cases hstage <;> simp_all

theorem of_pending (hcall : after = some call) (hpending : call.status = .pending)
    (hopen : call.abandoned = false) :
    before = some call ∧ node.activity.call = none ∨ call.caller = address ∧ node'.activity.call = some index := by
  cases hstage <;> simp_all <;> grind

/-- A caller records a callee when it gets the answer it waits for. -/
theorem caller_iff (hadds : adds)
    (hopen : node.activity.call = some index → ∀ call ∈ before, call.abandoned = false)
    (negotiation : Negotiation) (callee : Address) :
    ∃ new : Prop, (callee ∈ node'.rpc.runtimes negotiation.callerRole ↔
        callee ∈ node.rpc.runtimes negotiation.callerRole ∨ new) ∧
      ((∃ call ∈ after, call.Affirmed negotiation address callee ∧ call.abandoned = false ∧
          node'.activity.call ≠ some index) ↔
        (∃ call ∈ before, call.Affirmed negotiation address callee ∧ call.abandoned = false ∧
          node.activity.call ≠ some index) ∨ new) := by
  have hrole (other : Negotiation) : negotiation.callerRole = other.callerRole ↔ negotiation = other :=
    Negotiation.callerRole_injective.eq_iff
  cases hstage with
  | rest hrpc hfree hfree' => exact ⟨False, by simp [hrpc hadds], by simp [hfree, hfree']⟩
  | call _ _ _ hpending | decline _ hpending => exact ⟨False, by simp, by simp [Call.Affirmed, hpending]⟩
  | accept _ hpending _ hne =>
    refine ⟨False, ?_, by simp [Call.Affirmed, hpending, hne]⟩
    simp [RpcState.mem_emplace, Negotiation.callerRole_ne_calleeRole]
  | resume _ hempty => exact ⟨False, by simp, by simp [Call.Affirmed, hempty]⟩
  | record hwaits hreply hcaller hfree' =>
    refine ⟨_, RpcState.mem_emplace, ?_⟩
    simp only [Call.Affirmed, hwaits, hfree', hrole]
    grind
  | giveUp hwaits => exact ⟨False, by simp, by simp [hwaits]⟩

/-- For the other runtimes a call counts as before. -/
theorem other_iff {other : Address} (hother : other ≠ address) {waits : Option ℕ}
    (hpending : ∀ call ∈ before, call.status = .pending →
      call.abandoned = false → call.caller = other → waits = some index) (negotiation : Negotiation)
    (callee : Address) :
    (∃ call ∈ after, call.Affirmed negotiation other callee ∧ call.abandoned = false ∧ waits ≠ some index) ↔
      ∃ call ∈ before, call.Affirmed negotiation other callee ∧ call.abandoned = false ∧ waits ≠ some index := by
  cases hstage <;> simp_all [Call.Affirmed]; grind

theorem lost (hcall : before = some call) (haffirmed : call.Affirmed negotiation caller callee)
    (hgiven : call.abandoned = true) :
    ∃ call', after = some call' ∧ call'.Affirmed negotiation caller callee ∧ call'.abandoned = true := by
  cases hstage <;> simp_all [Call.Affirmed]

theorem caller_of_abandoned {old new : Call} (hold : before = some old) (hnew : after = some new)
    (hopen : old.abandoned = false) : new.abandoned = false ∨ old.caller = address := by
  cases hstage <;> simp_all <;> grind

end Stage

variable {adds : Prop} {condition condition' : ℕ → Call → Prop} {new : Prop}

variable (hmoves : Moves adds plane plane' address node node' index)

include hmoves

/-- Only the conditions on the call that moves on matter. -/
theorem Moves.someCall_iff
    (hother : ∀ other call, other ≠ index → (condition' other call ↔ condition other call))
    (hhere : (∃ call ∈ plane'.calls[index]?, condition' index call) ↔
      (∃ call ∈ plane.calls[index]?, condition index call) ∨ new) :
    plane'.SomeCall condition' ↔ plane.SomeCall condition ∨ new := by
  have hrest : (plane.SomeCall fun other call ↦ other ≠ index ∧ condition' other call) ↔
      plane.SomeCall fun other call ↦ other ≠ index ∧ condition other call :=
    someCall_congr fun other call _ ↦ and_congr_right fun h ↦ hother other call h
  have hsplit : plane.SomeCall condition ↔ _ := someCall_at fun other (_ : other ≠ index) ↦ rfl
  rw [someCall_at hmoves.calls, hhere, hrest, hsplit, or_right_comm]

/-- A step affirms no call, or exactly one. -/
theorem Moves.calleeSide (hadds : adds) (haccounted : plane.Accounted)
    (hfound : plane'.nodes other = some found) : plane'.CalleeSide other found := by
  intro negotiation caller
  rw [hmoves.someCall_iff (fun _ _ _ ↦ Iff.rfl) (hmoves.stage.affirmed_iff hadds negotiation caller other)]
  rw [hmoves.nodes] at hfound
  rcases nodes_setNode hfound with ⟨rfl, rfl⟩ | ⟨hother, hold⟩
  · rw [← haccounted.callee hmoves.at_address]
    have hsubset := @hmoves.stage.callee_subset
    tauto
  · rw [haccounted.callee hold, or_iff_left fun h ↦ hother h.1]

/-- A callee is recorded when its answer has a configuration in it. -/
theorem Moves.callerSide (hadds : adds) (haccounted : plane.Accounted)
    (hfound : plane'.nodes other = some found) : plane'.CallerSide other found := by
  intro negotiation callee
  rw [hmoves.nodes] at hfound
  rcases nodes_setNode hfound with ⟨rfl, rfl⟩ | ⟨hother, hold⟩
  · obtain ⟨new, hmem, hhere⟩ := hmoves.stage.caller_iff hadds (fun hwaits call hcall ↦
      haccounted.waiting hmoves.at_address hwaits hcall) negotiation callee
    rw [hmem, haccounted.caller hmoves.at_address negotiation callee]
    refine (hmoves.someCall_iff (fun place call hplace ↦ ?_) hhere).symm
    simp [hmoves.stage.ne_waits hplace]
  · rw [haccounted.caller hold negotiation callee, ← or_false (plane.SomeCall _)]
    refine (hmoves.someCall_iff (fun _ _ _ ↦ Iff.rfl) ?_).symm
    rw [or_false]
    refine hmoves.stage.other_iff hother (fun call hcall hpending hopen hcaller ↦ ?_) negotiation callee
    exact haccounted.pending hcall hpending hopen (hcaller ▸ hold)

/-- A runtime affirms a call of a caller only once. -/
theorem Moves.once {index₁ index₂ : ℕ} {call₁ call₂ : Call} (hadds : adds) (haccounted : plane.Accounted)
    (hcall₁ : plane'.calls[index₁]? = some call₁) (hcall₂ : plane'.calls[index₂]? = some call₂)
    (haffirmed₁ : call₁.Affirmed negotiation caller callee)
    (haffirmed₂ : call₂.Affirmed negotiation caller callee) : index₁ = index₂ := by
  have hback {place : ℕ} {call : Call} (hcall : plane'.calls[place]? = some call)
      (haffirmed : call.Affirmed negotiation caller callee) :
      (∃ old, plane.calls[place]? = some old ∧ old.Affirmed negotiation caller callee) ∨ place = index ∧
        ¬ plane.SomeCall fun _ old ↦ old.Affirmed negotiation caller callee := by
    by_cases hplace : place = index
    · subst hplace
      rcases (hmoves.stage.affirmed_iff hadds _ _ _).1 ⟨call, hcall, haffirmed⟩ with hold | ⟨rfl, -, hnew⟩
      · exact .inl hold
      · exact .inr ⟨rfl, mt (haccounted.callee hmoves.at_address _ _).2 hnew⟩
    · exact .inl ⟨call, hmoves.calls place hplace ▸ hcall, haffirmed⟩
  rcases hback hcall₁ haffirmed₁, hback hcall₂ haffirmed₂ with
    ⟨⟨old₁, hold₁, h₁⟩ | ⟨rfl, hnone⟩, ⟨old₂, hold₂, h₂⟩ | ⟨rfl, hnone'⟩⟩
  · exact haccounted.once hold₁ hold₂ h₁ h₂
  · exact absurd ⟨_, old₁, hold₁, h₁⟩ hnone'
  · exact absurd ⟨_, old₂, hold₂, h₂⟩ hnone
  · rfl

omit hmoves

/-- Every call is waited for by its own caller only. -/
theorem Formed.caller_of_waiting (hformed : plane.Formed deployment) (hnode : plane.nodes address = some node)
    (hwaiting : node.activity.call = some index) :
    ∃ call, plane.calls[index]? = some call ∧ call.caller = address := by
  cases hactivity : node.activity with
  | idle | serving => exact absurd hwaiting (by simp [hactivity, Activity.call])
  | waiting =>
    rw [hactivity] at hwaiting
    cases hwaiting
    obtain ⟨call, hcall, hcaller, -⟩ := (hformed.awaits hnode hactivity).call
    exact ⟨call, hcall, hcaller⟩

variable (hmoves : Moves adds plane plane' address node node' index)

include hmoves

/-- Nobody waits for a call that was given up. -/
theorem Moves.waiting {place : ℕ} (hformed : plane.Formed deployment) (haccounted : plane.Accounted)
    (hfound : plane'.nodes other = some found) (hwaiting : found.activity.call = some place)
    (hcall : plane'.calls[place]? = some call) : call.abandoned = false := by
  rw [hmoves.nodes] at hfound
  by_cases hplace : place = index
  · subst hplace
    rcases nodes_setNode hfound with ⟨rfl, rfl⟩ | ⟨hother, hold⟩
    · exact hmoves.stage.open_of_waits hwaiting hcall
    · obtain ⟨old, hcall', hcaller⟩ := hformed.caller_of_waiting hold hwaiting
      rcases hmoves.stage.caller_of_abandoned hcall' hcall (haccounted.waiting hold hwaiting hcall') with h | h
      · exact h
      · exact absurd (hcaller.symm.trans h) hother
  · rw [hmoves.calls place hplace] at hcall
    rcases nodes_setNode hfound with ⟨rfl, rfl⟩ | ⟨hother, hold⟩
    · exact absurd hwaiting (hmoves.stage.ne_waits hplace).2
    · exact haccounted.waiting hold hwaiting hcall

/-- The caller waits for a call that was neither answered nor given up. -/
theorem Moves.pending {place : ℕ} (haccounted : plane.Accounted) (hcall : plane'.calls[place]? = some call)
    (hpending : call.status = .pending) (hopen : call.abandoned = false)
    (hfound : plane'.nodes call.caller = some found) : found.activity.call = some place := by
  rw [hmoves.nodes] at hfound
  by_cases hplace : place = index
  · subst hplace
    rcases hmoves.stage.of_pending hcall hpending hopen with ⟨hbefore, hfree⟩ | ⟨hcaller, hwaits⟩
    · rcases nodes_setNode hfound with ⟨hcaller, rfl⟩ | ⟨-, hold⟩
      · have hwaits := haccounted.pending hbefore hpending hopen (hcaller ▸ hmoves.at_address)
        cases hfree.symm.trans hwaits
      · exact haccounted.pending hbefore hpending hopen hold
    · rcases nodes_setNode hfound with ⟨-, rfl⟩ | ⟨hother, -⟩
      · exact hwaits
      · exact absurd hcaller hother
  · rw [hmoves.calls place hplace] at hcall
    rcases nodes_setNode hfound with ⟨hcaller, rfl⟩ | ⟨-, hold⟩
    · have hwaits := haccounted.pending hcall hpending hopen (hcaller ▸ hmoves.at_address)
      exact absurd hwaits (hmoves.stage.ne_waits hplace).1
    · exact haccounted.pending hcall hpending hopen hold

omit hmoves

theorem accounted_boot (deployment : Deployment) : deployment.boot.Accounted where
  callee hnode negotiation caller := by
    obtain ⟨peer, -, rfl⟩ := map_eq_some_iff.1 hnode
    simp [Deployment.bootRpc, Deployment.boot, SomeCall]
  caller hnode negotiation callee := by
    obtain ⟨peer, -, rfl⟩ := map_eq_some_iff.1 hnode
    simp [Deployment.bootRpc, Deployment.boot, SomeCall]
  once hcall := absurd hcall (by simp [Deployment.boot])
  waiting _ _ hcall := absurd hcall (by simp [Deployment.boot])
  pending hcall := absurd hcall (by simp [Deployment.boot])

theorem accounted_of_reachable (hreach : deployment.system.Reachable OnlyAdds plane) :
    plane.Accounted ∧ plane.Formed deployment := by
  refine @TransitionSystem.Reachable.invariant _ _ _ _ (fun s ↦ s.Accounted ∧ s.Formed deployment) _ hreach
    (fun _ h ↦ h ▸ ⟨accounted_boot deployment, Formed.boot deployment⟩) fun s input s' hs hadds hstep ↦ ?_
  obtain ⟨⟨_, emission⟩, hemit, rfl⟩ := map_eq_some_iff.1 hstep
  obtain ⟨haccounted, hformed⟩ := hs
  have hturn := turn_of_emit hemit
  obtain ⟨_, _, _, _, hmoves⟩ := hturn.moves hformed
  exact ⟨⟨hmoves.calleeSide hadds haccounted, hmoves.callerSide hadds haccounted, hmoves.once hadds haccounted,
    hmoves.waiting hformed haccounted, hmoves.pending haccounted⟩, hformed.turn hturn⟩

/-- The callee recorded the caller, but the caller gave the call up. -/
def LostReply (plane : Plane) (negotiation : Negotiation) (caller callee : Address) : Prop :=
  plane.SomeCall fun _ call ↦ call.Affirmed negotiation caller callee ∧ call.abandoned = true

theorem Moves.lostReply (hmoves : Moves adds plane plane' address node node' index)
    (hlost : plane.LostReply negotiation caller callee) : plane'.LostReply negotiation caller callee := by
  obtain ⟨place, call, hcall, haffirmed, hgiven⟩ := hlost
  by_cases hplace : place = index
  · subst hplace
    obtain ⟨call', hcall', hlost⟩ := hmoves.stage.lost hcall haffirmed hgiven
    exact ⟨place, call', hcall', hlost⟩
  · exact ⟨place, call, (hmoves.calls place hplace).trans hcall, haffirmed, hgiven⟩

theorem lostReply_run {inputs : List ControlInput} (hformed : plane.Formed deployment)
    (hlost : plane.LostReply negotiation caller callee) (hrun : deployment.system.run plane inputs = some plane') :
    plane'.LostReply negotiation caller callee := by
  induction inputs generalizing plane with
  | nil =>
    cases hrun
    exact hlost
  | cons _ _ ih =>
    obtain ⟨mid, hmid, hrest⟩ := bind_eq_some_iff.1 hrun
    obtain ⟨⟨_, emission⟩, hemit, rfl⟩ := map_eq_some_iff.1 hmid
    obtain ⟨_, _, _, _, hmoves⟩ := (turn_of_emit hemit).moves hformed
    exact ih (hformed.turn (turn_of_emit hemit)) (hmoves.lostReply hlost) hrest

/-- Without deletes, what a caller has recorded the callee has recorded too. While the caller waits for no
answer the two agree exactly if no reply was lost between them, and a lost reply stays lost whatever is
requested later. -/
theorem agreement_iff_no_lost_reply (deployment : Deployment) (plane : Plane)
    (hreach : deployment.system.Reachable OnlyAdds plane) (x y : Address) (caller callee : Node)
    (hcaller : plane.nodes x = some caller) (hcallee : plane.nodes y = some callee)
    (hfree : caller.activity.call = none) (negotiation : Negotiation) :
    (y ∈ caller.rpc.runtimes negotiation.callerRole → x ∈ callee.rpc.runtimes negotiation.calleeRole) ∧
      ((y ∈ caller.rpc.runtimes negotiation.callerRole ↔ x ∈ callee.rpc.runtimes negotiation.calleeRole) ↔
        ¬ plane.LostReply negotiation x y) ∧
      (plane.LostReply negotiation x y → ∀ inputs plane', deployment.system.run plane inputs = some plane' →
        plane'.LostReply negotiation x y) := by
  obtain ⟨haccounted, hformed⟩ := accounted_of_reachable hreach
  have hrecorded := haccounted.caller hcaller negotiation y
  have haffirmed := haccounted.callee hcallee negotiation x
  simp only [hfree, ne_eq, reduceCtorEq, not_false_eq_true, and_true] at hrecorded
  have hforward : y ∈ caller.rpc.runtimes negotiation.callerRole →
      x ∈ callee.rpc.runtimes negotiation.calleeRole := by
    rw [hrecorded, haffirmed]
    rintro ⟨index, call, hcall, hyes, -⟩
    exact ⟨index, call, hcall, hyes⟩
  refine ⟨hforward, ⟨?_, ?_⟩, fun hlost inputs plane' hrun ↦ lostReply_run hformed hlost hrun⟩
  · rintro hagree ⟨index, call, hcall, hyes, hgiven⟩
    obtain ⟨index', call', hcall', hyes', hopen⟩ :=
      hrecorded.1 (hagree.2 (haffirmed.2 ⟨index, call, hcall, hyes⟩))
    obtain rfl := haccounted.once hcall hcall' hyes hyes'
    cases hcall.symm.trans hcall'
    cases hgiven.symm.trans hopen
  · intro hnone
    refine ⟨hforward, fun hmem ↦ ?_⟩
    obtain ⟨index, call, hcall, hyes⟩ := haffirmed.1 hmem
    refine hrecorded.2 ⟨index, call, hcall, hyes, ?_⟩
    exact Bool.eq_false_iff.2 fun hgiven ↦ hnone ⟨index, call, hcall, hyes, hgiven⟩

/-- The first runtime asks the second to be its output, gives up, and asks again. -/
def repeatedRequest : List ControlInput :=
  [.request firstPeer.val.address (.negotiate .addOutputRts [secondPeer.val.address]),
    .iterate firstPeer.val.address, .execute 0, .giveUp firstPeer.val.address,
    .iterate firstPeer.val.address] ++ negotiated .addOutputRts 1

theorem agreement_iff_no_lost_reply_two_runtimes :
    ∃ plane caller callee,
      twoRuntimes.system.run twoRuntimes.boot (negotiated .addOutputRts 0) = some plane ∧
      plane.nodes firstPeer.val.address = some caller ∧ plane.nodes secondPeer.val.address = some callee ∧
      caller.activity.call = none ∧ secondPeer.val.address ∈ caller.rpc.runtimes .output ∧
      firstPeer.val.address ∈ callee.rpc.runtimes .input ∧
      ¬ plane.LostReply .addOutputRts firstPeer.val.address secondPeer.val.address := by
  obtain ⟨plane, hplane, caller, hcaller, callee, hcallee, hfree, houtput, hinput⟩ :
      ∃ plane ∈ twoRuntimes.system.run twoRuntimes.boot (negotiated .addOutputRts 0),
      ∃ caller ∈ plane.nodes firstPeer.val.address, ∃ callee ∈ plane.nodes secondPeer.val.address,
        caller.activity.call = none ∧ secondPeer.val.address ∈ caller.rpc.runtimes .output ∧
          firstPeer.val.address ∈ callee.rpc.runtimes .input := by decide +kernel
  have hreach : twoRuntimes.system.Reachable OnlyAdds plane := by
    refine TransitionSystem.reachable_run _ (.start rfl) ?_ hplane
    intro input hinput _
    fin_cases hinput <;> trivial
  have hagree := agreement_iff_no_lost_reply twoRuntimes plane hreach _ _ caller callee hcaller hcallee hfree
    .addOutputRts
  exact ⟨plane, caller, callee, hplane, hcaller, hcallee, hfree, houtput, hinput,
    hagree.2.1.1 (iff_of_true houtput hinput)⟩

/-- After the repeated request the second runtime has the first as an input, but is not an output of the first.
-/
theorem repeated_request_keeps_disagreement :
    ∃ plane caller callee, twoRuntimes.system.run twoRuntimes.boot repeatedRequest = some plane ∧
      plane.nodes firstPeer.val.address = some caller ∧ plane.nodes secondPeer.val.address = some callee ∧
      caller.activity = .idle ∧ secondPeer.val.address ∉ caller.rpc.runtimes .output ∧
      firstPeer.val.address ∈ callee.rpc.runtimes .input := by
  exact ⟨_, _, _, rfl, rfl, rfl, rfl, by decide +kernel, by decide +kernel⟩

end Plane

end NfvActor.Control
