import Mathlib.Tactic
import NfvActor.Migration.Network
import NfvActor.Migration.Responses
import NfvActor.Migration.RouteRequests

/-!
# Rolling back a route

A source that gives a migration up asks the input runtime of the flow for the route and waits in
`flow_actor_migration_failure_processing`; it asks again whenever the answer is late. Channels are in order and
requests are numbered, so the answer to the last request tells that all older ones were handled: the route is
back, unless somebody else has asked for another one.
-/

namespace NfvActor.Migration

open NfvActor.Foundation
open NfvActor.Actor
open Function
open Option (bind_eq_some_iff map_eq_some_iff)

/-- Requests are numbered in the order they are sent in, and armed timers hold used numbers. -/
structure Ordered {σ τ : Type} (rt : Runtime σ τ) : Prop where
  sound : rt.ledger.Sound
  start : 2 ≤ idBound rt.nextMsgId
  armed : ∀ ptr kind, kind ≠ .idle → (rt.timers ptr kind).Armed →
    (rt.timers ptr kind).requestMsgId.toNat < idBound rt.nextMsgId
  numbered : ∀ dest request, (dest, request) ∈ rt.outbox → request.body.asks.isSome = true →
    2 ≤ request.msgId.toNat ∧ request.msgId.toNat < idBound rt.nextMsgId
  increasing : rt.outbox.Pairwise fun first second ↦ first.2.body.asks.isSome = true →
    second.2.body.asks.isSome = true → first.2.msgId.toNat < second.2.msgId.toNat

namespace Ordered

variable {σ τ : Type} {rt rt' : Runtime σ τ} {input : Input σ}

theorem le_of_sent (hstep : rt.step input = some rt') (hle : idBound rt.nextMsgId ≤ idBound rt'.nextMsgId)
    {dest : UInt32} {request : Message σ} (hsent : rt'.outbox = rt.outbox ++ [(dest, request)])
    (hasks : request.body.asks.isSome = true) : idBound rt.nextMsgId ≤ request.msgId.toNat := by
  obtain ⟨kind, hkind⟩ := Option.isSome_iff_exists.1 hasks
  obtain ⟨ptr, list, msgType, -, -, hrequested⟩ := Runtime.requested_of_sent hstep hsent hkind
  exact (hrequested.toNat_lt hle).1

theorem step (h : Ordered rt) (hstep : rt.step input = some rt')
    (hle : idBound rt.nextMsgId ≤ idBound rt'.nextMsgId) : Ordered rt' := by
  refine ⟨h.sound.effect (Runtime.step_effect h.sound.blank input hstep), h.start.trans hle,
    Runtime.armedBelow_step h.armed hstep hle, Runtime.numbered_step h.start h.numbered hstep hle, ?_⟩
  rcases (Runtime.step_traffic input hstep).sent with hquiet | ⟨dest, message, hsent, -⟩
  · rw [hquiet]
    exact h.increasing
  · rw [hsent, List.pairwise_append]
    refine ⟨h.increasing, List.pairwise_singleton _ _, ?_⟩
    intro first hfirst second hsecond hasks hasks'
    rw [List.mem_singleton] at hsecond
    subst hsecond
    exact (h.numbered first.1 first.2 hfirst hasks).2.trans_le (le_of_sent hstep hle hsent hasks')

theorem boot (config : RuntimeConfig) (serviceChain : List ℕ) (code : ℕ → NetworkFunction σ τ) (zero : ℕ → σ)
    (sharedState : ℕ → τ) : Ordered (Runtime.boot config serviceChain code zero sharedState) := by
  have hidentified := Runtime.identified_boot config serviceChain code zero sharedState
  exact ⟨hidentified.sound, hidentified.message, hidentified.armed,
    fun _ _ hmem ↦ absurd hmem List.not_mem_nil, List.Pairwise.nil⟩

end Ordered

namespace Network

variable {σ τ : Type} {net net' : Network σ τ} {input : NetworkInput σ}

/-- What has been sent and not yet delivered. -/
def undelivered (net : Network σ τ) (sender receiver : UInt32) : List (Message σ) :=
  (net.channel sender receiver).drop (net.delivered sender receiver)

/-- What is left of a channel after the delivery of an input. -/
def remaining (net : Network σ τ) (input : NetworkInput σ) (sender receiver : UInt32) : List (Message σ) :=
  (net.channel sender receiver).drop (net.advance input sender receiver)

variable {sender source : UInt32} {ptr : ℕ}

/-- A delivery takes the first message of its channel. -/
theorem undelivered_of_event {rtid : UInt32} {env : Environment σ} {message : Message σ}
    (h : net.event input = some (rtid, .message env sender message)) :
    net.undelivered sender rtid = message :: net.remaining input sender rtid ∧
      ∀ sender' receiver', sender' ≠ sender ∨ receiver' ≠ rtid →
        net.remaining input sender' receiver' = net.undelivered sender' receiver' := by
  obtain ⟨rfl, hget⟩ := deliver_of_event h
  constructor
  · obtain ⟨hlt, hmessage⟩ := List.getElem?_eq_some_iff.1 hget
    rw [undelivered, List.drop_eq_getElem_cons hlt, hmessage, remaining, advance, update_self, update_self]
  · rintro sender' receiver (hne | hne)
    · rw [remaining, advance, update_of_ne hne]
      rfl
    · rw [remaining, advance, update_apply]
      split
      · next heq =>
        rw [heq, update_of_ne hne]
        rfl
      · rfl

theorem channel_split (net : Network σ τ) (sender receiver : UInt32) :
    net.handed sender receiver ++ net.undelivered sender receiver = net.channel sender receiver :=
  List.take_append_drop _ _

/-- Of two requests on one channel the delivered one is older. -/
theorem lt_of_undelivered {receiver : UInt32} (h : Ordered (net.runtimes sender)) {first second : Message σ}
    (hfirst : first ∈ net.handed sender receiver) (hsecond : second ∈ net.undelivered sender receiver)
    (hasks : first.body.asks.isSome = true) (hasks' : second.body.asks.isSome = true) :
    first.msgId.toNat < second.msgId.toNat := by
  have hchannel : (net.channel sender receiver).Pairwise fun first second ↦
      first.body.asks.isSome = true → second.body.asks.isSome = true →
        first.msgId.toNat < second.msgId.toNat := by
    refine h.increasing.filterMap _ ?_
    intro entry entry' horder message hmessage message' hmessage'
    split at hmessage <;> split at hmessage' <;> simp_all
  rw [← net.channel_split, List.pairwise_append] at hchannel
  exact hchannel.2.2 first hfirst second hsecond hasks hasks'

/-- Every response answers a request that has been delivered. -/
def Heard (net : Network σ τ) : Prop :=
  ∀ rtid dest message kind requestMsgId, (dest, message) ∈ (net.runtimes rtid).outbox →
    message.body.request = some (kind, requestMsgId) →
      ∃ request ∈ net.handed dest rtid, message.body.answers request.body = true ∧
        request.msgId = requestMsgId

theorem Heard.step (h : net.Heard) (hstep : net.step input = some net') : net'.Heard := by
  intro rtid dest message kind requestMsgId hmem hresponse
  rcases sent_cases hstep hmem with hold | ⟨event, hevent, hcause⟩
  · obtain ⟨request, hrequest, hrest⟩ := h rtid dest message kind requestMsgId hold hresponse
    exact ⟨request, (handed_mono hstep dest rtid).subset hrequest, hrest⟩
  · obtain ⟨env, request, hinput, hanswers, hid, -⟩ := Exchange.echo_of_cause hcause hresponse
    rw [hinput] at hevent
    have hhanded := (handed_of_event hstep hevent).subset (List.mem_append_right _ List.mem_cons_self)
    exact ⟨request, hhanded, hanswers, hid⟩

/-! ## Waiting for the route -/

/-- While the last request of a rollback is awaited: which one it is, that no later one sends the flow
elsewhere, and that the route is back once it was granted. -/
structure Awaited (net : Network σ τ) (source vswitch : UInt32) (key : FlowKey) (id : UInt32) : Prop where
  own : ∀ dest request, (dest, request) ∈ (net.runtimes source).outbox →
    request.body.asks.isSome = true → request.msgId = id →
      dest = vswitch ∧ request.body = .changeVswitchRoute key source
  later : ∀ request, (vswitch, request) ∈ (net.runtimes source).outbox →
    request.body.subject = some key → request.msgId.toNat < id.toNat ∨
      request.body.reroutes = some (key, source)
  moved : ∀ response, (source, response) ∈ (net.runtimes vswitch).outbox →
    response.body = .changeVswitchRouteResponse id 0 → (net.runtimes vswitch).route key = some source

theorem Awaited.moved_step {vswitch id : UInt32} {key : FlowKey} (h : net.Awaited source vswitch key id)
    (hordered : Ordered (net.runtimes source)) (hheard : net.Heard) (hstep : net.step input = some net')
    (hroute : ∀ event, net.event input = some (vswitch, event) →
      (net.runtimes vswitch).routeHolds source key event = true)
    (response : Message σ) (hmem : (source, response) ∈ (net'.runtimes vswitch).outbox)
    (hbody : response.body = .changeVswitchRouteResponse id 0) :
    (net'.runtimes vswitch).route key = some source := by
  obtain ⟨rtid, event, rt, hevent, hrt, hnet⟩ := step_spec hstep
  by_cases heq : vswitch = rtid
  · subst heq
    rw [hnet, update_self] at hmem ⊢
    rcases (Runtime.step_traffic event hrt).sent_cases hmem with hold | ⟨hsent, -⟩
    · have hbefore := h.moved response hold hbody
      have hholds := hroute event hevent
      rw [Runtime.routeHolds, Bool.or_eq_true] at hholds
      rcases hholds with hasksFor | hsame
      · cases event with
        | message _ senderRtid message =>
          obtain ⟨rfl, hrecv, hsubject⟩ := of_decide_eq_true hasksFor
          rcases h.later message (sent_of_event hevent) hsubject with hlt | hreroutes
          · obtain ⟨request, hrequest, hanswers, hid⟩ := hheard vswitch senderRtid response .migration id
              hold (by rw [hbody]; rfl)
            have hasks := MessageBody.asks_of_answers (by rw [hbody]; rfl) hanswers
            have hnext : message ∈ net.undelivered senderRtid vswitch := by
              rw [(undelivered_of_event hevent).1]
              exact List.mem_cons_self
            have hgt := lt_of_undelivered hordered hrequest hnext (Option.isSome_iff_exists.2 ⟨_, hasks⟩)
              (MessageBody.asks_of_subject hsubject)
            rw [hid] at hgt
            exact absurd hgt (not_lt.2 hlt.le)
          · obtain ⟨ptr, hentry, -⟩ := map_eq_some_iff.1 hbefore
            rw [Runtime.route_of_reroutes hrt hrecv hreroutes, hentry]
            rfl
        | _ => exact absurd hasksFor (by simp [Runtime.asksFor])
      · rw [hrt, Option.all_some, decide_eq_true_eq] at hsame
        exact hsame.trans hbefore
    · obtain ⟨env, request, key', newOutputRtId, hinput, hrequest, hid, hrouted⟩ :=
        Runtime.route_of_accepted hrt hsent hbody
      rw [hinput] at hevent
      obtain ⟨-, hown⟩ := h.own vswitch request (sent_of_event hevent) (by rw [hrequest]; rfl) hid
      obtain ⟨rfl, rfl⟩ := MessageBody.changeVswitchRoute.inj (hrequest.symm.trans hown)
      exact hrouted
  · rw [hnet, update_of_ne heq] at hmem ⊢
    exact h.moved response hmem hbody

/-- The message ids of the source hold, and while its actor waits for the route no other actor of the source
with the same flow handles anything and nobody else changes the route at the input runtime. -/
def keepsRoute (net : Network σ τ) (source : UInt32) (ptr : ℕ) (input : NetworkInput σ) : Bool :=
  (net.event input).all fun (rtid, event) ↦
    let rt := net.runtimes source
    (rtid != source || rt.messageIdsHold event) &&
      ((rt.actors ptr).currentState != .failureProcessing ||
        (rtid != source || rt.soleRequester ptr event) &&
          (rtid != (rt.routes ptr).1 || (net.runtimes rtid).routeHolds source (rt.actors ptr).flowKey event))

section

variable (h : net.keepsRoute source ptr input = true)

include h

theorem messageIdsHold_of_keepsRoute {event : Input σ} (hevent : net.event input = some (source, event)) :
    (net.runtimes source).messageIdsHold event = true := by
  rw [keepsRoute, hevent, Option.all_some, Bool.and_eq_true, bne_self_eq_false, Bool.false_or] at h
  exact h.1

theorem soleRequester_of_keepsRoute {event : Input σ}
    (hstate : ((net.runtimes source).actors ptr).currentState = .failureProcessing)
    (hevent : net.event input = some (source, event)) :
    (net.runtimes source).soleRequester ptr event = true := by
  simp only [keepsRoute, hevent, Option.all_some, hstate, bne_self_eq_false, Bool.false_or,
    Bool.and_eq_true] at h
  exact h.2.1

theorem routeHolds_of_keepsRoute (hstate : ((net.runtimes source).actors ptr).currentState = .failureProcessing)
    (event : Input σ) (hevent : net.event input = some (((net.runtimes source).routes ptr).1, event)) :
    (net.runtimes ((net.runtimes source).routes ptr).1).routeHolds source
      ((net.runtimes source).actors ptr).flowKey event = true := by
  simp only [keepsRoute, hevent, Option.all_some, hstate, bne_self_eq_false, Bool.false_or,
    Bool.and_eq_true] at h
  exact h.2.2

end

/-- The facts about one actor of the source that hold in every run. -/
structure RollsBack (net : Network σ τ) (source : UInt32) (ptr : ℕ) : Prop where
  config : (net.runtimes source).config.runtimeId = source
  ordered : Ordered (net.runtimes source)
  heard : net.Heard
  awaited : (net.runtimes source).Returns ptr →
    net.Awaited source ((net.runtimes source).routes ptr).1 ((net.runtimes source).actors ptr).flowKey
      ((net.runtimes source).timers ptr .migration).requestMsgId

/-- The request that a response answers was sent in an earlier step. -/
theorem Heard.sent_before (h : net.Heard) (hstep : net.step input = some net') {rtid dest : UInt32}
    {message : Message σ} {kind : TimerKind} {requestMsgId : UInt32}
    (hmem : (dest, message) ∈ (net'.runtimes rtid).outbox)
    (hresponse : message.body.request = some (kind, requestMsgId)) :
    ∃ request, (rtid, request) ∈ (net.runtimes dest).outbox ∧
      message.body.answers request.body = true ∧ request.msgId = requestMsgId := by
  rcases sent_cases hstep hmem with hold | ⟨event, hevent, hcause⟩
  · obtain ⟨request, hrequest, hrest⟩ := h rtid dest message kind requestMsgId hold hresponse
    exact ⟨request, sent_of_handed hrequest, hrest⟩
  · obtain ⟨env, request, hinput, hanswers, hid, -⟩ := Exchange.echo_of_cause hcause hresponse
    rw [hinput] at hevent
    exact ⟨request, sent_of_event hevent, hanswers, hid⟩

namespace RollsBack

variable {source : UInt32} {ptr : ℕ} {event : Input σ} {rt : Runtime σ τ}

section

variable (h : net.RollsBack source ptr)

include h

/-- An actor that waits for the route has asked for it. -/
theorem body_of_asked (hevent : net.event input = some (source, event))
    (hrt : (net.runtimes source).step event = some rt) (hreturns : rt.Returns ptr)
    (hlive : (net.runtimes source).Allocated ptr) (hhandler : (net.runtimes source).handler event = some ptr)
    {dest : UInt32} {request : Message σ}
    (hsent : rt.outbox = (net.runtimes source).outbox ++ [(dest, request)])
    (hasks : request.body.asks = some .migration) :
    dest = ((net.runtimes source).routes ptr).1 ∧
      request.body = .changeVswitchRoute ((net.runtimes source).actors ptr).flowKey source := by
  obtain ⟨ptr', hhandler', hasked⟩ := Runtime.step_asks hrt hsent (Option.isSome_iff_exists.2 ⟨_, hasks⟩)
  obtain rfl : ptr' = ptr := Option.some.inj (hhandler'.symm.trans hhandler)
  cases hasked with
  | create _ _ _ hstate | ship _ hstate => exact absurd (hstate.symm.trans hreturns.state) (by decide)
  | recover _ hbody =>
    rw [hbody] at hasks
    exact absurd hasks (by simp [MessageBody.asks])
  | back hdest hbody =>
    rw [h.config] at hbody
    exact ⟨hdest, hbody⟩
  | forward _ senderRtid message _ hinput hbody _ _ hstate =>
    rw [hinput] at hevent
    obtain ⟨answered, hanswered, hanswers, hid⟩ := h.heard senderRtid source message .migration _
      (sent_of_event hevent) (by rw [hbody]; rfl)
    have hkind := MessageBody.asks_of_answers (by rw [hbody]; rfl) hanswers
    have hsome : answered.body.asks.isSome = true := Option.isSome_iff_exists.2 ⟨_, hkind⟩
    have hnumber := (h.ordered.numbered senderRtid answered (sent_of_handed hanswered) hsome).1
    have hbefore : (net.runtimes source).Returns ptr' := by
      refine ⟨hlive, hstate.symm.trans hreturns.state, fun hoff ↦ ?_⟩
      change ((net.runtimes source).actors ptr').migrationTimer.requestMsgId = invalidMessageId at hoff
      rw [hid, hoff] at hnumber
      exact absurd hnumber (by decide)
    obtain ⟨-, hown⟩ := (h.awaited hbefore).own senderRtid answered (sent_of_handed hanswered) hsome hid
    rw [hbody, hown] at hanswers
    exact absurd hanswers (by simp [MessageBody.answers])

section

variable (hkeeps : net.keepsRoute source ptr input = true)

include hkeeps

/-- The wait for an answer goes on in a step that is not about its timer. -/
theorem awaited_of_kept (hstep : net.step input = some net') (hevent : net.event input = some (source, event))
    (hrt : (net.runtimes source).step event = some rt) (hnet : net'.runtimes = update net.runtimes source rt)
    (hreturns : (net.runtimes source).Returns ptr)
    (hnone : ∀ call ∈ (net.runtimes source).timerCalls event, ¬call.Concerns ptr .migration) :
    net'.Awaited source ((net.runtimes source).routes ptr).1 ((net.runtimes source).actors ptr).flowKey
      ((net.runtimes source).timers ptr .migration).requestMsgId := by
  have hawaited := h.awaited hreturns
  have hle := Runtime.idBound_mono (messageIdsHold_of_keepsRoute hkeeps hevent) hrt
  have hsole := soleRequester_of_keepsRoute hkeeps hreturns.state hevent
  have hsource : net'.runtimes source = rt := by
    rw [hnet, update_self]
  refine ⟨?_, ?_, hawaited.moved_step h.ordered h.heard hstep
    (routeHolds_of_keepsRoute hkeeps hreturns.state)⟩ <;> rw [hsource]
  · intro dest request hmem hasks hid
    rcases (Runtime.step_traffic event hrt).sent_cases hmem with hold | ⟨hsent, -⟩
    · exact hawaited.own dest request hold hasks hid
    · have hfrom := Ordered.le_of_sent hrt hle hsent hasks
      have hbelow := h.ordered.armed ptr .migration (by decide) hreturns.armed
      rw [hid] at hfrom
      exact absurd hbelow (not_lt.2 hfrom)
  · intro request hmem hsubject
    rcases (Runtime.step_traffic event hrt).sent_cases hmem with hold | ⟨hsent, -⟩
    · exact hawaited.later request hold hsubject
    · have hreroutes := Runtime.reroutes_of_untouched hrt hnone hsole hsent hsubject
      rw [h.config] at hreroutes
      exact .inr hreroutes

/-- A new request of the rollback makes a new wait. -/
theorem awaited_of_asked (hstep : net.step input = some net') (hevent : net.event input = some (source, event))
    (hrt : (net.runtimes source).step event = some rt) (hnet : net'.runtimes = update net.runtimes source rt)
    (hreturns : rt.Returns ptr) (hlive : (net.runtimes source).Allocated ptr)
    (hhandler : (net.runtimes source).handler event = some ptr)
    (hrequested : (net.runtimes source).Requested rt ptr .migration (rt.timers ptr .migration).requestMsgId) :
    net'.Awaited source ((net.runtimes source).routes ptr).1 ((net.runtimes source).actors ptr).flowKey
      (rt.timers ptr .migration).requestMsgId := by
  have hle := Runtime.idBound_mono (messageIdsHold_of_keepsRoute hkeeps hevent) hrt
  have hfresh := (hrequested.toNat_lt hle).1
  have hsource : net'.runtimes source = rt := by
    rw [hnet, update_self]
  have hbody : ∀ dest request, rt.outbox = (net.runtimes source).outbox ++ [(dest, request)] →
      dest = ((net.runtimes source).routes ptr).1 ∧
        request.body = .changeVswitchRoute ((net.runtimes source).actors ptr).flowKey source := by
    intro dest request hsent
    refine h.body_of_asked hevent hrt hreturns hlive hhandler hsent ?_
    rcases hrequested.sent with hquiet | ⟨dest', recvActorId, body, hasks, hsent'⟩
    · rw [hquiet] at hsent
      exact absurd hsent (by simp)
    · rw [hsent'] at hsent
      obtain ⟨-, rfl⟩ := Prod.mk.inj (List.singleton_inj.1 (List.append_cancel_left hsent))
      exact hasks
  refine ⟨?_, ?_, ?_⟩
  · intro dest request hmem hasks hid
    rw [hsource] at hmem
    rcases (Runtime.step_traffic event hrt).sent_cases hmem with hold | ⟨hsent, -⟩
    · have hbelow := (h.ordered.numbered dest request hold hasks).2
      rw [hid] at hbelow
      exact absurd hbelow (not_lt.2 hfresh)
    · exact hbody dest request hsent
  · intro request hmem hsubject
    rw [hsource] at hmem
    rcases (Runtime.step_traffic event hrt).sent_cases hmem with hold | ⟨hsent, -⟩
    · have hbelow := (h.ordered.numbered _ request hold (MessageBody.asks_of_subject hsubject)).2
      exact .inl (hbelow.trans_le hfresh)
    · rw [(hbody _ request hsent).2]
      exact .inr rfl
  · intro response hmem hresponse
    obtain ⟨request, hold, hanswers, hid⟩ := h.heard.sent_before hstep hmem (by rw [hresponse]; rfl)
    have hasks := MessageBody.asks_of_answers (by rw [hresponse]; rfl) hanswers
    have hbelow := (h.ordered.numbered _ request hold (Option.isSome_iff_exists.2 ⟨_, hasks⟩)).2
    rw [hid] at hbelow
    exact absurd hbelow (not_lt.2 hfresh)

theorem step (hstep : net.step input = some net') : net'.RollsBack source ptr := by
  obtain ⟨rtid, event, rt, hevent, hrt, hnet⟩ := step_spec hstep
  by_cases heq : source = rtid
  · subst heq
    have hsource : net'.runtimes source = rt := by
      rw [hnet, update_self]
    have hle := Runtime.idBound_mono (messageIdsHold_of_keepsRoute hkeeps hevent) hrt
    refine ⟨?_, ?_, h.heard.step hstep, ?_⟩ <;> rw [hsource]
    · rw [(Runtime.step_reroute hrt).config_eq, h.config]
    · exact h.ordered.step hrt hle
    · intro hreturns
      obtain ⟨hlive, hkey, hinput, horigin⟩ := hreturns.origin h.ordered.sound hrt
      rw [hkey, hinput]
      cases horigin with
      | kept hbefore htimer hnone =>
        rw [htimer]
        exact h.awaited_of_kept hkeeps hstep hevent hrt hnet hbefore hnone
      | asked hhandler hrequested =>
        exact h.awaited_of_asked hkeeps hstep hevent hrt hnet hreturns hlive hhandler hrequested
  · have hsource : net'.runtimes source = net.runtimes source := by
      rw [hnet, update_of_ne heq]
    refine ⟨?_, ?_, h.heard.step hstep, ?_⟩ <;> rw [hsource]
    · exact h.config
    · exact h.ordered
    · intro hreturns
      have hawaited := h.awaited hreturns
      refine ⟨?_, ?_, hawaited.moved_step h.ordered h.heard hstep
        (routeHolds_of_keepsRoute hkeeps hreturns.state)⟩ <;> rw [hsource]
      · exact hawaited.own
      · exact hawaited.later

end

end

theorem init (h : (system σ τ).init net) : net.RollsBack source ptr := by
  have hempty : ∀ rtid entry, entry ∉ (net.runtimes rtid).outbox := by
    intro rtid entry
    obtain ⟨config, serviceChain, code, zero, sharedState, -, hrt⟩ := h.1 rtid
    rw [hrt]
    exact List.not_mem_nil
  obtain ⟨config, serviceChain, code, zero, sharedState, hid, hrt⟩ := h.1 source
  refine ⟨?_, ?_, ?_, ?_⟩
  · rw [hrt]
    exact hid
  · rw [hrt]
    exact .boot config serviceChain code zero sharedState
  · intro rtid dest message kind requestMsgId hmem
    exact absurd hmem (hempty rtid _)
  · intro _
    exact ⟨fun _ _ hmem ↦ absurd hmem (hempty source _), fun _ hmem ↦ absurd hmem (hempty source _),
      fun _ hmem ↦ absurd hmem (hempty _ _)⟩

theorem of_reachable (hreach : (system σ τ).Reachable
    (fun net input ↦ net.keepsRoute source ptr input = true) net) : net.RollsBack source ptr :=
  hreach.invariant (fun _ ↦ init) fun _ _ _ h hkeeps hstep ↦ h.step hkeeps hstep

/-- The answer comes from the input runtime, and the request is behind every other one for the route. -/
theorem granted (h : net.RollsBack source ptr) {sender : UInt32} {response : Message σ}
    (hlive : (net.runtimes source).Allocated ptr)
    (hstate : ((net.runtimes source).actors ptr).currentState = .failureProcessing)
    (hmem : (source, response) ∈ (net.runtimes sender).outbox)
    (hbody : response.body = .changeVswitchRouteResponse
      ((net.runtimes source).timers ptr .migration).requestMsgId 0) :
    (net.runtimes ((net.runtimes source).routes ptr).1).route ((net.runtimes source).actors ptr).flowKey =
        some source ∧
      ∀ message ∈ net.undelivered source ((net.runtimes source).routes ptr).1,
        message.body.subject = some ((net.runtimes source).actors ptr).flowKey →
          message.body.reroutes = some (((net.runtimes source).actors ptr).flowKey, source) := by
  obtain ⟨request, hrequest, hanswers, hid⟩ := h.heard sender source response .migration _ hmem
    (by rw [hbody]; rfl)
  have hkind := MessageBody.asks_of_answers (by rw [hbody]; rfl) hanswers
  have hasks : request.body.asks.isSome = true := Option.isSome_iff_exists.2 ⟨_, hkind⟩
  have hnumber := (h.ordered.numbered sender request (sent_of_handed hrequest) hasks).1
  have hreturns : (net.runtimes source).Returns ptr := by
    refine ⟨hlive, hstate, fun hoff ↦ ?_⟩
    rw [hid, hoff] at hnumber
    exact absurd hnumber (by decide)
  have hawaited := h.awaited hreturns
  obtain ⟨rfl, -⟩ := hawaited.own sender request (sent_of_handed hrequest) hasks hid
  refine ⟨hawaited.moved response hmem hbody, fun message hmessage hsubject ↦ ?_⟩
  have hsent := mem_channel.1 (List.mem_of_mem_drop hmessage)
  have hlater := lt_of_undelivered h.ordered hrequest hmessage hasks (MessageBody.asks_of_subject hsubject)
  rw [hid] at hlater
  exact (hawaited.later message hsent hsubject).resolve_left (not_lt.2 hlater.le)

end RollsBack

theorem undelivered_subset (hstep : net.step input = some net')
    (houtbox : (net'.runtimes sender).outbox = (net.runtimes sender).outbox) (receiver : UInt32) :
    net'.undelivered sender receiver ⊆ net.undelivered sender receiver := by
  have hchannel : net'.channel sender receiver = net.channel sender receiver := by
    rw [channel, channel, houtbox]
  rw [undelivered, undelivered, hchannel]
  exact (List.drop_sublist_drop_left _ (delivered_mono hstep sender receiver)).subset

/-- Whenever message ids hold and, while the actor of the source waits for the route, neither another actor of
the source nor another runtime changes it: when a granted request brings the actor back to normal processing,
the input runtime sends the flow to the source and no request under way moves it away. -/
theorem rollback_restores_route {source sender : UInt32} {ptr : ℕ} {env : Environment σ}
    {response : Message σ} {id : UInt32}
    (hreach : (system σ τ).Reachable (fun net input ↦ net.keepsRoute source ptr input = true) net)
    (hstep : net.step input = some net')
    (hevent : net.event input = some (source, .message env sender response))
    (hbody : response.body = .changeVswitchRouteResponse id 0)
    (hhandler : (net.runtimes source).handler (.message env sender response) = some ptr)
    (hbefore : ((net.runtimes source).actors ptr).currentState = .failureProcessing)
    (hafter : ((net'.runtimes source).actors ptr).currentState = .normalProcessing) :
    (net'.runtimes ((net.runtimes source).routes ptr).1).route ((net.runtimes source).actors ptr).flowKey =
        some source ∧
      ∀ message ∈ net'.undelivered source ((net.runtimes source).routes ptr).1, ∀ newOutputRtId,
        message.body = .changeVswitchRoute ((net.runtimes source).actors ptr).flowKey newOutputRtId →
          newOutputRtId = source := by
  have h := RollsBack.of_reachable hreach
  obtain ⟨rtid, event, rt, hevent', hrt, hnet⟩ := step_spec hstep
  cases hevent.symm.trans hevent'
  have hsource : net'.runtimes source = rt := by
    rw [hnet, update_self]
  rw [Runtime.handler] at hhandler
  split at hhandler
  · cases hhandler
  next hrecv =>
  have hlive : (net.runtimes source).Allocated ptr := h.ordered.sound.id_live _ ptr hhandler
  change (net.runtimes source).matchMessage env sender response = some rt at hrt
  rw [Runtime.matchMessage, if_neg hrecv, hhandler] at hrt
  dsimp only at hrt
  rw [Runtime.matchFlowActor, hbody] at hrt
  rw [hsource] at hafter
  obtain ⟨rfl, houtbox, hroutes⟩ := Runtime.changeVswitchRouteResponse_leaves hrt hbefore
    (by rw [hafter]; decide)
  obtain ⟨hroute, hlast⟩ := h.granted hlive hbefore (sent_of_event hevent) hbody
  constructor
  · rw [hnet, update_apply]
    split
    · next heq =>
      rw [heq] at hroute
      rw [hroutes, hroute]
    · exact hroute
  · intro message hmem newOutputRtId hmessage
    have hreroutes := hlast message (undelivered_subset hstep (by rw [hsource, houtbox]) _ hmem)
      (by rw [hmessage]; rfl)
    rw [hmessage] at hreroutes
    exact (Prod.mk.inj (Option.some.inj hreroutes)).2

open NfvActor.Actor.Runtime (connected tcpPacket)

theorem rollback_restores_route_late : ∃ net net' : Network Unit Unit,
    (system Unit Unit).run smallNetwork (handover ++ rollback.take 2) = some net ∧
      net.step (.deliver 3 1 connected) = some net' ∧
      ((net'.runtimes 1).actors 1).currentState = .normalProcessing ∧
      (net'.runtimes 3).route ((net.runtimes 1).actors 1).flowKey = some 1 := by
  obtain ⟨net, hsteps, net', hstep, response, hget, hbefore, hafter, hbody, hhandler, hinput⟩ :
      ∃ net, (system Unit Unit).runChecked (fun net input ↦ net.keepsRoute 1 1 input) smallNetwork
        (handover ++ rollback.take 2) = some net ∧
      ∃ net', net.step (.deliver 3 1 connected) = some net' ∧
      ∃ response, (net.channel 3 1)[net.delivered 3 1]? = some response ∧
        ((net.runtimes 1).actors 1).currentState = .failureProcessing ∧
        ((net'.runtimes 1).actors 1).currentState = .normalProcessing ∧
        response.body = .changeVswitchRouteResponse 5 0 ∧
        (net.runtimes 1).handler (.message connected 3 response) = some 1 ∧
        ((net.runtimes 1).routes 1).1 = 3 :=
    ⟨_, rfl, _, rfl, _, rfl, rfl, rfl, rfl, rfl, rfl⟩
  have hreach := TransitionSystem.Reachable.replayChecked init_smallNetwork hsteps
  have hevent : net.event (.deliver 3 1 connected) = some (1, .message connected 3 response) := by
    rw [event, hget]
    rfl
  have hroute := (rollback_restores_route hreach hstep hevent hbody hhandler hbefore hafter).1
  rw [hinput] at hroute
  exact ⟨net, net', TransitionSystem.run_of_runChecked hsteps, hstep, hafter, hroute⟩

/-- Runtime `1` has an actor for a flow when runtime `2` hands it another one. -/
def twinFlows : List (NetworkInput Unit) :=
  [.internal 3 (.packet connected (tcpPacket 7)),
    .internal 1 (.packet connected (tcpPacket 7)),
    .internal 2 (.packet connected (tcpPacket 7)),
    .internal 2 (.migrateTo 1 1),
    .internal 2 (.migrationIteration connected),
    .deliver 2 1 connected]

/-- Both actors are migrated to runtime `2`; the first asks for the route back, then the second for the route to
the target. -/
def crossedRequests : List (NetworkInput Unit) :=
  [.internal 1 (.migrateTo 2 2),
    .internal 1 (.migrationIteration connected),
    .internal 1 (.migrationIteration connected),
    .deliver 1 2 connected,
    .deliver 1 2 connected,
    .deliver 1 2 connected,
    .deliver 2 1 connected,
    .internal 1 (.fire connected 1 .migration),
    .deliver 1 3 connected,
    .deliver 1 3 connected,
    .deliver 2 1 connected,
    .deliver 1 3 connected,
    .deliver 3 1 connected]

/-- Nobody but a given runtime changes the route of a flow at another one. -/
def routeUndisturbed (net : Network σ τ) (source vswitch : UInt32) (key : FlowKey)
    (input : NetworkInput σ) : Bool :=
  (net.event input).all fun (rtid, event) ↦
    rtid != vswitch || (net.runtimes vswitch).routeHolds source key event

/-- The first actor is told that its route is back, but runtime `3` sends the flow to runtime `2`, and no other
runtime has changed the route. -/
theorem route_lost_by_twin : ∃ before net net' : Network Unit Unit,
    (system Unit Unit).run smallNetwork twinFlows = some before ∧
      (system Unit Unit).runChecked
        (fun net input ↦ net.routeUndisturbed 1 3 ((before.runtimes 1).actors 1).flowKey input) before
        crossedRequests = some net ∧
      net.step (.deliver 3 1 connected) = some net' ∧
      (net.channel 3 1)[net.delivered 3 1]?.map Message.body = some (.changeVswitchRouteResponse 6 0) ∧
      ((net.runtimes 1).routes 1).1 = 3 ∧
      ((net.runtimes 1).actors 1).flowKey = ((before.runtimes 1).actors 1).flowKey ∧
      ((net.runtimes 1).actors 1).currentState = .failureProcessing ∧
      ((net'.runtimes 1).actors 1).currentState = .normalProcessing ∧
      (net'.runtimes 3).route ((before.runtimes 1).actors 1).flowKey = some 2 := by
  exact ⟨_, _, _, rfl, rfl, rfl, rfl, rfl, by decide +kernel, rfl, rfl, rfl⟩

end Network

end NfvActor.Migration
