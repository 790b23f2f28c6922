import Mathlib.Tactic
import NfvActor.Migration.Network
import NfvActor.Timers.Requests

/-!
# Late responses

A response can be delivered after a timeout, after the request was repeated, or after the actor that asked was
removed. `Exchange` keeps the requests that are under way at each runtime. As long as no counter of message ids
wraps around, a response changes nothing unless it answers the request that its actor has under way.
-/

namespace NfvActor.Migration

open NfvActor.Foundation
open NfvActor.Actor
open Function

theorem request_of_opens {σ : Type} {body : MessageBody σ} {round : Round}
    (h : body.opens = some round) : body.request = none := by
  cases body <;> simp_all [MessageBody.opens, MessageBody.request]

theorem answers_of_closes {σ : Type} {response request : MessageBody σ} {round : Round} {kind : TimerKind}
    {msgId requestMsgId : UInt32} (hopens : request.opens = some round)
    (hcloses : response.closes = some (round, msgId))
    (hresponse : response.request = some (kind, requestMsgId)) :
    response.answers request = true ∧ msgId = requestMsgId := by
  cases response with
  | startMigrationResponse | changeVswitchRouteResponse | migrateFlowStateResponse =>
    cases hcloses
    cases request <;> simp_all [MessageBody.opens, MessageBody.request, MessageBody.answers]
  | _ => exact absurd hcloses (by simp [MessageBody.closes])

/-- A network and the requests that are under way at each runtime. -/
structure Exchange (σ τ : Type) where
  net : Network σ τ
  pending : UInt32 → Pending σ

namespace Exchange

variable {σ τ : Type}

def step (exchange : Exchange σ τ) (input : NetworkInput σ) : Option (Exchange σ τ) :=
  (exchange.net.event input).bind fun (rtid, event) ↦
    (exchange.net.step input).map fun net ↦
      { net := net
        pending := update exchange.pending rtid
          ((exchange.net.runtimes rtid).follow event (net.runtimes rtid) (exchange.pending rtid)) }

def system (σ τ : Type) : TransitionSystem (Exchange σ τ) (NetworkInput σ) where
  init exchange := (Network.system σ τ).init exchange.net ∧
    ∀ rtid, exchange.pending rtid = fun _ _ ↦ none
  step := step

/-- The counter of message ids of the runtime that steps does not wrap around. -/
def messageIdsHold (exchange : Exchange σ τ) (input : NetworkInput σ) : Bool :=
  (exchange.net.event input).all fun (rtid, event) ↦ (exchange.net.runtimes rtid).messageIdsHold event

/-- Every response echoes a request of the runtime it is sent to. -/
def Echoed (net : Network σ τ) : Prop :=
  ∀ rtid dest message kind requestMsgId, (dest, message) ∈ (net.runtimes rtid).outbox →
    message.body.request = some (kind, requestMsgId) →
      ∃ request, (rtid, request) ∈ (net.runtimes dest).outbox ∧
        message.body.answers request.body = true ∧ request.msgId = requestMsgId ∧
          request.sendActorId = message.recvActorId

theorem echo_of_cause {rt rt' : Runtime σ τ} {input : Input σ} {dest : UInt32} {message : Message σ}
    {kind : TimerKind} {requestMsgId : UInt32} (hcause : rt.Cause input rt' dest message)
    (hresponse : message.body.request = some (kind, requestMsgId)) :
    ∃ env request, input = .message env dest request ∧ message.body.answers request.body = true ∧
      request.msgId = requestMsgId ∧ request.sendActorId = message.recvActorId := by
  cases hcause with
  | plain _ _ hnone => cases hnone.symm.trans hresponse
  | request _ hopens | ship _ _ hopens =>
    exact absurd ((request_of_opens hopens).symm.trans hresponse) (by simp)
  | reply env request _ hinput hopens _ hcloses hrecv =>
    obtain ⟨hanswers, hid⟩ := answers_of_closes hopens hcloses hresponse
    exact ⟨env, request, hinput, hanswers, hid, hrecv.symm⟩
  | recovered env request _ _ _ hinput hrequest hbody hrecv =>
    refine ⟨env, request, hinput, ?_, ?_, hrecv.symm⟩
    · rw [hbody, hrequest]
      rfl
    · rw [hbody] at hresponse
      exact (Prod.mk.inj (Option.some.inj hresponse)).2

variable {input : NetworkInput σ} {exchange : Exchange σ τ}

theorem Echoed.step {net net' : Network σ τ} (h : Echoed net) (hstep : net.step input = some net') :
    Echoed net' := by
  intro rtid dest message kind requestMsgId hmem hresponse
  have hmono := (Network.outbox_mono hstep dest).subset
  rcases Network.sent_cases hstep hmem with hold | ⟨event, hevent, hcause⟩
  · obtain ⟨request, hrequest, hrest⟩ := h rtid dest message kind requestMsgId hold hresponse
    exact ⟨request, hmono hrequest, hrest⟩
  · obtain ⟨env, request, hinput, hrest⟩ := echo_of_cause hcause hresponse
    rw [hinput] at hevent
    exact ⟨request, hmono (Network.sent_of_event hevent), hrest⟩

/-- Timers wait for what is under way, and responses echo requests. -/
structure Matched (exchange : Exchange σ τ) : Prop where
  tracked : ∀ rtid, (exchange.net.runtimes rtid).Tracked (exchange.pending rtid)
  echoed : Echoed exchange.net

theorem Matched.init (h : (system σ τ).init exchange) : exchange.Matched := by
  constructor
  · intro rtid
    obtain ⟨config, serviceChain, code, zero, sharedState, -, hrt⟩ := h.1.1 rtid
    rw [hrt, h.2 rtid]
    exact .boot config serviceChain code zero sharedState
  · intro rtid dest message kind requestMsgId hmem
    obtain ⟨config, serviceChain, code, zero, sharedState, -, hrt⟩ := h.1.1 rtid
    rw [hrt] at hmem
    exact absurd hmem List.not_mem_nil

theorem Matched.step {exchange' : Exchange σ τ} (h : exchange.Matched)
    (hids : exchange.messageIdsHold input = true) (hstep : exchange.step input = some exchange') :
    exchange'.Matched := by
  obtain ⟨⟨rtid, event⟩, hevent, hnext⟩ := Option.bind_eq_some_iff.1 hstep
  obtain ⟨net, hnet, rfl⟩ := Option.map_eq_some_iff.1 hnext
  refine ⟨fun other ↦ ?_, h.echoed.step hnet⟩
  obtain ⟨rtid', event', rt, hevent', hrt, hruntimes⟩ := Network.step_spec hnet
  cases hevent.symm.trans hevent'
  rw [messageIdsHold, hevent] at hids
  dsimp only
  rw [hruntimes]
  by_cases heq : other = rtid
  · subst heq
    rw [update_self, update_self]
    exact (h.tracked other).step hids hrt
  · rw [update_of_ne heq, update_of_ne heq]
    exact h.tracked other

/-- If no counter of message ids wraps around, a response that changes a runtime answers the request that the
actor it is addressed to has under way. -/
theorem stale_responses_inert {exchange : Exchange σ τ} {input : NetworkInput σ} {env : Environment σ}
    {sender receiver : UInt32} {message : Message σ} {kind : TimerKind} {requestMsgId : UInt32}
    {rt : Runtime σ τ}
    (hreach : (system σ τ).Reachable (fun exchange input ↦ exchange.messageIdsHold input = true) exchange)
    (hevent : exchange.net.event input = some (receiver, .message env sender message))
    (hresponse : message.body.request = some (kind, requestMsgId))
    (hstep : (exchange.net.runtimes receiver).step (.message env sender message) = some rt)
    (hchange : rt ≠ exchange.net.runtimes receiver) :
    ∃ ptr request, (exchange.net.runtimes receiver).actoridHtable message.recvActorId = some ptr ∧
      (exchange.net.runtimes receiver).Allocated ptr ∧
        exchange.pending receiver ptr kind = some (sender, request) ∧ request.msgId = requestMsgId ∧
          request.sendActorId = message.recvActorId ∧ message.body.answers request.body = true := by
  have h : exchange.Matched :=
    hreach.invariant (fun _ ↦ Matched.init) fun _ _ _ h hids hstep ↦ h.step hids hstep
  have hsound := (h.tracked receiver).sound
  obtain ⟨ptr, hentry, htimer⟩ := Runtime.timer_of_response hresponse hstep hchange
  obtain ⟨request, hsent, hanswers, hid, hsender⟩ := h.echoed sender receiver message kind requestMsgId
    (Network.sent_of_event hevent) hresponse
  have hasks := MessageBody.asks_of_answers hresponse hanswers
  have hkind : kind ≠ .idle := by
    rintro rfl
    cases hbody : request.body <;> simp [hbody, MessageBody.asks] at hasks
  have hwaits : (exchange.net.runtimes receiver).WaitsFor ptr kind sender request :=
    ⟨hkind, hsent, Option.isSome_iff_exists.2 ⟨kind, hasks⟩, htimer.trans hid.symm⟩
  have hactor : request.sendActorId = ((exchange.net.runtimes receiver).actors ptr).actorId :=
    hsender.trans (hsound.id_eq _ ptr hentry).symm
  exact ⟨ptr, request, hentry, hsound.id_live _ ptr hentry,
    (h.tracked receiver).awaited ptr kind sender request hwaits hactor, hid, hsender, hanswers⟩

def smallExchange : Exchange Unit Unit := ⟨Network.smallNetwork, fun _ _ _ ↦ none⟩

theorem init_smallExchange : (system Unit Unit).init smallExchange := ⟨Network.init_smallNetwork, fun _ ↦ rfl⟩

open NfvActor.Actor.Runtime (connected)

/-- The answer of runtime `2` to the first request of runtime `1` finds it under way. -/
theorem stale_responses_inert_firstAnswer : ∃ (exchange : Exchange Unit Unit) (message : Message Unit)
    (rt : Runtime Unit Unit) (ptr : ℕ) (request : Message Unit),
    (system Unit Unit).run smallExchange (Network.handover.take 5) = some exchange ∧
      (exchange.net.runtimes 1).step (.message connected 2 message) = some rt ∧
      exchange.pending 1 ptr .migration = some (2, request) ∧ request.msgId = 2 := by
  obtain ⟨exchange, hsteps, message, hget, hresponse, rt, hrt, hids⟩ :
      ∃ exchange ∈ (system Unit Unit).runChecked (fun exchange input ↦ exchange.messageIdsHold input)
        smallExchange (Network.handover.take 5),
      ∃ message ∈ (exchange.net.channel 2 1)[exchange.net.delivered 2 1]?,
        message.body.request = some (.migration, 2) ∧
      ∃ rt ∈ (exchange.net.runtimes 1).step (.message connected 2 message),
        rt.nextMsgId ≠ (exchange.net.runtimes 1).nextMsgId := by decide +kernel
  have hreach := TransitionSystem.Reachable.replayChecked init_smallExchange hsteps
  have hevent : exchange.net.event (.deliver 2 1 connected) =
      some (1, .message connected 2 message) := by
    rw [Network.event, hget]
    rfl
  have hchange : rt ≠ exchange.net.runtimes 1 := by
    rintro rfl
    exact hids rfl
  obtain ⟨ptr, request, -, -, hpending, hid, -⟩ :=
    stale_responses_inert hreach hevent hresponse hrt hchange
  exact ⟨exchange, message, rt, ptr, request, TransitionSystem.run_of_runChecked hsteps, hrt, hpending, hid⟩

end Exchange

end NfvActor.Migration
