import Mathlib.Tactic
import NfvActor.Actor.FlowTables
import NfvActor.Actor.Routes
import NfvActor.Timers.Requests

/-!
# Requests to change a route

The source of a migration asks the input runtime of the flow to change the route: first to the target, and if
the migration fails back to itself. Only `failure_handling` enters the state in which it waits for the route to
come back.
-/

namespace NfvActor.Actor

open NfvActor.Foundation
open NfvActor.Actor.Runtime (deadendFlowActor)
open Option (bind_eq_some_iff map_eq_some_iff)

/-- The flow that a request to the coordinator of a peer is about. -/
def MessageBody.subject {σ : Type} : MessageBody σ → Option FlowKey
  | createMigrationTargetActor _ _ key => some key
  | changeVswitchRoute key _ => some key
  | replicaRecover key _ => some key
  | _ => none

theorem MessageBody.asks_of_subject {σ : Type} {body : MessageBody σ} {key : FlowKey}
    (h : body.subject = some key) : body.asks.isSome = true := by
  cases body <;> simp_all [subject, asks]

namespace Runtime

variable {σ τ : Type}

/-- The request that an actor sends in a step, as far as routes are concerned. -/
inductive Asks (rt : Runtime σ τ) (input : Input σ) (rt' : Runtime σ τ) (ptr : ℕ) (dest : UInt32)
    (body : MessageBody σ) : Prop
  | create (inputHeader outputHeader : EtherHeader) :
      body = .createMigrationTargetActor inputHeader outputHeader (rt.actors ptr).flowKey →
      (rt'.actors ptr).currentState = .migrationSource → Asks rt input rt' ptr dest body
  | forward (env : Environment σ) (senderRtid : UInt32) (message : Message σ) (targetId : UInt32) :
      input = .message env senderRtid message →
      message.body = .startMigrationResponse (rt.actors ptr).migrationTimer.requestMsgId targetId →
      dest = (rt.routes ptr).1 →
      body = .changeVswitchRoute (rt.actors ptr).flowKey rt.migration.targetRtId →
      (rt'.actors ptr).currentState = (rt.actors ptr).currentState →
      Asks rt input rt' ptr dest body
  | back : dest = (rt.routes ptr).1 →
      body = .changeVswitchRoute (rt.actors ptr).flowKey rt.config.runtimeId →
      Asks rt input rt' ptr dest body
  | ship : body.subject = none → (rt'.actors ptr).currentState = .afterRouteChange →
      Asks rt input rt' ptr dest body
  | recover : dest = (rt.routes ptr).1 →
      body = .replicaRecover (rt.actors ptr).flowKey rt.config.runtimeId → Asks rt input rt' ptr dest body

variable {rt base rt' : Runtime σ τ} {dest : UInt32} {body : MessageBody σ} {ptr : ℕ} {message : Message σ}
  {input : Input σ} {sent : Bool} {request : Request σ}

theorem Prepares.handler (h : rt.Prepares input base sent ptr request) : rt.handler input = some ptr := by
  cases h with
  | depart _ _ _ hpick => exact hpick
  | forward _ _ _ _ _ _ hdelivers | ship _ _ _ _ _ hdelivers | stay _ _ _ _ _ _ hdelivers =>
    exact (if_neg hdelivers.1).trans hdelivers.2.1
  | recover _ _ _ hpick => exact hpick
  | back | recoverAgain => rfl

theorem Prepares.asks (h : rt.Prepares input base sent ptr request) :
    rt.Asks input (base.ask sent ptr request) ptr request.dest request.body := by
  cases h with
  | depart =>
    refine .create _ _ rfl ?_
    rw [actors_ask, actors_enter]
    rfl
  | forward env senderRtid message _ targetId _ _ hbody =>
    refine .forward env senderRtid message targetId rfl hbody rfl rfl ?_
    rw [actors_ask, actors_modifyActor, actors_invalidate]
    rfl
  | ship =>
    refine .ship rfl ?_
    rw [actors_ask, actors_enter]
    rfl
  | stay | back => exact .back rfl rfl
  | recover | recoverAgain => exact .recover rfl rfl

theorem step_asks (hstep : rt.step input = some rt') (hsent : rt'.outbox = rt.outbox ++ [(dest, message)])
    (hasks : message.body.asks.isSome = true) :
    ∃ ptr, rt.handler input = some ptr ∧ rt.Asks input rt' ptr dest message.body := by
  obtain ⟨kind, hkind⟩ := Option.isSome_iff_exists.1 hasks
  obtain ⟨other, list, msgType, hmem, hhandler, -⟩ := requested_of_sent hstep hsent hkind
  have hquiet (houtbox : rt'.outbox = rt.outbox) :
      ∃ ptr, rt.handler input = some ptr ∧ rt.Asks input rt' ptr dest message.body :=
    absurd (houtbox.symm.trans hsent) (by simp)
  have hcoordinator {env : Environment σ} {senderRtid : UInt32} {received : Message σ}
      (hrecv : received.recvActorId = coordinatorActorId) :
        rt.handler (.message env senderRtid received) ≠ some other := by
    rw [handler, if_pos hrecv]
    simp
  cases step_outcome hstep with
  | ask _ base sent ptr request hprepares =>
    have hbase : base.outbox = rt.outbox := by cases hprepares <;> rfl
    cases sent with
    | false => exact hquiet hbase
    | true =>
      have hout : base.outbox ++ _ = rt.outbox ++ [(dest, message)] := hsent
      rw [hbase] at hout
      obtain ⟨rfl, rfl⟩ := Prod.mk.inj (List.singleton_inj.1 (List.append_cancel_left hout))
      exact ⟨ptr, hprepares.handler, hprepares.asks⟩
  | rest => exact hquiet rfl
  | tally _ _ htallies => exact hquiet htallies.quiet.outbox
  | abandon _ _ _ habandons => exact hquiet (by cases habandons <;> rfl)
  | newFlow _ _ _ _ hopens =>
    cases hopens with
    | packet => exact absurd hhandler (by simp [handler])
    | target _ _ _ _ _ _ _ _ _ _ hrecv | replica _ _ _ _ _ _ _ _ _ _ _ _ _ hrecv =>
      exact absurd hhandler (hcoordinator hrecv)
  | packet | unserved => exact absurd hhandler (by simp [handler])
  | ping _ _ _ _ hrecv | route _ _ _ _ _ _ _ _ hrecv | mirror _ _ _ _ _ _ _ _ _ _ hrecv =>
    exact absurd hhandler (hcoordinator hrecv)
  | bindDeadend _ _ _ _ _ _ _ _ _ hrecv => exact absurd hhandler (hcoordinator hrecv)
  | arrive _ _ received ptr _ _ _ hdelivers hbody =>
    have hptr : rt.actoridHtable received.recvActorId = some ptr := hdelivers.2.1
    simp [timerCalls, hdelivers.1, hptr, flowActorCalls, hbody, MessageBody.request] at hmem
  | complete _ _ _ ptr => exact hquiet (removed_quiet (rt.settled ptr) ptr).outbox
  | leave _ ptr =>
    have hleft : (rt.left ptr).outbox = rt.outbox := by
      rw [left, drained]
      split <;> rfl
    exact hquiet ((removed_quiet (rt.left ptr) ptr).outbox.trans hleft)
  | recovered | notRecovered | idleAgain => exact hquiet rfl

/-- A request to a coordinator is about the flow of its sender. -/
theorem Asks.subject_eq (h : rt.Asks input rt' ptr dest body) {key : FlowKey}
    (hsubject : body.subject = some key) : key = (rt.actors ptr).flowKey := by
  cases h with
  | create => simp_all [MessageBody.subject]
  | forward => simp_all [MessageBody.subject]
  | back => simp_all [MessageBody.subject]
  | ship hnone => cases hnone.symm.trans hsubject
  | recover => simp_all [MessageBody.subject]

end Runtime

namespace Ledger

variable {σ : Type} {ledger : Ledger} {ptr other : ℕ} {state : FlowState}

/-- Only an answer in a migration, or its absence, leads to `flow_actor_migration_failure_processing`. -/
theorem Effect.failing {ledger' : Ledger} {input : Input σ} (hsound : ledger.Sound)
    (heffect : ledger.Effect input ledger') (h : (ledger'.cards other).currentState = .failureProcessing) :
    (ledger.cards other).currentState = .failureProcessing ∨ ledger.Answers input other .migration := by
  have hkept {ptr : ℕ} (halters : ledger.Alters ledger' ptr)
      (hptr : (ledger'.cards ptr).currentState = .failureProcessing →
        (ledger.cards ptr).currentState = .failureProcessing ∨ ledger.Answers input ptr .migration) :
      (ledger.cards other).currentState = .failureProcessing ∨ ledger.Answers input other .migration := by
    by_cases heq : other = ptr
    · exact heq ▸ hptr (heq ▸ h)
    · exact .inl (by rwa [halters.cards other heq] at h)
  cases heffect.shift hsound with
  | turn ptr card halters _ hcard hturn =>
    refine hkept halters ?_
    rw [hcard]
    cases hturn with
    | request _ _ hanswers => exact fun _ ↦ .inr hanswers
    | refuse | depart | abandon | arrive => exact fun hstate ↦ absurd hstate (by simp)
    | _ => exact .inl
  | enroll ptr _ _ _ hadmitted =>
    refine hkept hadmitted.alters ?_
    rw [hadmitted.card]
    rcases hadmitted.starts with rfl | rfl <;> exact fun hstate ↦ absurd hstate (by simp [admittedCard])
  | dismiss ptr hdismissed =>
    refine hkept hdismissed.alters fun hstate ↦ ?_
    rcases hdismissed.state with hsame | hnormal
    · exact .inl (hsame.symm.trans hstate)
    · exact absurd (hnormal.symm.trans hstate) (by decide)

end Ledger

namespace Runtime

variable {σ τ : Type} {rt rt' : Runtime σ τ} {input : Input σ} {ptr : ℕ} {env : Environment σ}
  {key : FlowKey} {newOutputRtId dest : UInt32}

/-- An input that ends a wait makes a call about its timer. -/
theorem concerns_of_answers {kind : TimerKind} (h : rt.ledger.Answers input ptr kind) :
    ∃ call ∈ rt.timerCalls input, call.Concerns ptr kind := by
  have htimer : ∀ ptr kind, (rt.ledger.cards ptr).timer kind = (rt.actors ptr).timer kind :=
    fun _ _ ↦ card_timer _ _
  cases h with
  | timeout env _ kind' =>
    rw [htimer]
    exact ⟨_, rt.invalidate_mem_timeoutCalls env ptr ((rt.actors ptr).timer kind').msgType, rfl, rfl⟩
  | response env _ message _ _ hdelivers hbody =>
    refine ⟨.invalidate ptr kind, ?_, rfl, rfl⟩
    rw [htimer] at hbody
    have hentry : rt.actoridHtable message.recvActorId = some ptr := hdelivers.2.1
    simp only [timerCalls, if_neg hdelivers.1, hentry, Option.map_some, Option.getD_some, flowActorCalls,
      hbody, if_true]
    exact rt.invalidate_mem_answerCalls env ptr hbody

/-- An actor waits in `flow_actor_migration_failure_processing` for an answer. -/
structure Returns (rt : Runtime σ τ) (ptr : ℕ) : Prop where
  live : rt.Allocated ptr
  state : (rt.actors ptr).currentState = .failureProcessing
  armed : (rt.timers ptr .migration).Armed

/-- An actor that waits for the route waited before and no call was about its timer, or has sent a request in
the step. -/
inductive Returns.Origin (rt : Runtime σ τ) (input : Input σ) (rt' : Runtime σ τ) (ptr : ℕ) : Prop
  | kept : rt.Returns ptr → rt'.timers ptr .migration = rt.timers ptr .migration →
      (∀ call ∈ rt.timerCalls input, ¬call.Concerns ptr .migration) → Origin rt input rt' ptr
  | asked : rt.handler input = some ptr →
      rt.Requested rt' ptr .migration (rt'.timers ptr .migration).requestMsgId → Origin rt input rt' ptr

/-- What an actor that waits for the route has kept in a step. -/
theorem Returns.origin (h : rt'.Returns ptr) (hsound : rt.ledger.Sound) (hstep : rt.step input = some rt') :
    rt.Allocated ptr ∧ (rt'.actors ptr).flowKey = (rt.actors ptr).flowKey ∧
      (rt'.routes ptr).1 = (rt.routes ptr).1 ∧ Returns.Origin rt input rt' ptr := by
  have heffect := step_effect hsound.blank input hstep
  have hmakes := step_makes input hstep
  have hstate : (rt'.ledger.cards ptr).currentState = .failureProcessing := h.state
  cases heffect.tenure hsound ptr with
  | begins _ _ _ _ _ _ hstarts =>
    rw [hstate] at hstarts
    exact absurd hstarts (by decide)
  | ends hgone => exact absurd h.live hgone
  | keeps hlive _ hkey =>
    have hbefore : rt.Allocated ptr := hlive.1 h.live
    refine ⟨hbefore, hkey, (step_reroute hstep).input_eq fun ring hpop ↦ ?_, ?_⟩
    · exact (hsound.pool.pop hpop).2.1 hbefore
    rcases TimerTable.calls_cases hmakes.run ptr .migration with
      ⟨hnone, hsame⟩ | hoff | ⟨list, msgId, msgType, hmem, hon⟩
    · refine .kept ⟨hbefore, ?_, hsame ▸ h.armed⟩ hsame hnone
      rcases heffect.failing hsound hstate with hfailing | hanswers
      · exact hfailing
      · obtain ⟨call, hcall, hconcerns⟩ := concerns_of_answers hanswers
        exact absurd hconcerns (hnone call hcall)
    · exact absurd hoff h.armed
    · refine .asked (handler_of_add (by decide) hmem) ?_
      rw [hon]
      rcases hmakes.arms _ hmem with hidle | hrequest
      · exact absurd hidle.1 (by decide)
      · exact hrequest.2.2

/-! ## Changing a route -/

/-- The runtime that the packets of a flow are sent to. -/
def route (rt : Runtime σ τ) (key : FlowKey) : Option UInt32 :=
  (rt.htable key).map fun ptr ↦ (rt.routes ptr).2

theorem route_updateRoute {updated : UInt32 × Runtime σ τ}
    (h : rt.updateRoute env key newOutputRtId = some updated) :
    updated.2.route key = (rt.htable key).map fun _ ↦ newOutputRtId := by
  unfold updateRoute at h
  cases hentry : rt.htable key with
  | none =>
    rw [hentry] at h
    rw [← Option.some.inj h, route, hentry]
    rfl
  | some =>
    rw [hentry] at h
    obtain ⟨peer, -, rfl⟩ := map_eq_some_iff.1 h
    change ((rt.htable key).map _) = _
    rw [hentry, Option.map_some, Option.map_some, routes, actors_modifyActor]

/-- A request to change a route is answered after the output header of the flow has changed, if the flow is
known. -/
theorem route_of_reroutes {senderRtid : UInt32} {message : Message σ}
    (hstep : rt.step (.message env senderRtid message) = some rt')
    (hrecv : message.recvActorId = coordinatorActorId)
    (hbody : message.body.reroutes = some (key, newOutputRtId)) :
    rt'.route key = (rt.htable key).map fun _ ↦ newOutputRtId := by
  change rt.matchMessage env senderRtid message = some rt' at hstep
  rw [matchMessage, if_pos hrecv, matchCoordinator] at hstep
  cases hmessage : message.body with
  | changeVswitchRoute | replicaRecover =>
    rw [hmessage] at hstep hbody
    cases hbody
    obtain ⟨updated, hupdated, hstep⟩ := bind_eq_some_iff.1 hstep
    obtain ⟨sent, hsent, rfl⟩ := map_eq_some_iff.1 hstep
    rw [(sendMessage_spec hsent).1]
    exact route_updateRoute hupdated
  | _ => simp [hmessage, MessageBody.reroutes] at hbody

theorem changeVswitchRoute_accepted {senderRtid senderActorId msgId id : UInt32} {response : Message σ}
    (h : rt.changeVswitchRoute env senderRtid senderActorId msgId key newOutputRtId = some rt')
    (hsent : rt'.outbox = rt.outbox ++ [(dest, response)])
    (hbody : response.body = .changeVswitchRouteResponse id 0) : rt'.route key = some newOutputRtId := by
  obtain ⟨updated, hupdated, h⟩ := bind_eq_some_iff.1 h
  obtain ⟨sent, hmessage, rfl⟩ := map_eq_some_iff.1 h
  rw [(sendMessage_spec hmessage).1] at hsent ⊢
  have hzero : updated.1 = 0 := by
    rw [post, (updateRoute_quiet hupdated).outbox] at hsent
    split at hsent
    · obtain ⟨-, rfl⟩ := Prod.mk.inj (List.singleton_inj.1 (List.append_cancel_left hsent))
      exact (MessageBody.changeVswitchRouteResponse.inj hbody).2
    · exact absurd hsent (by simp)
  refine (route_updateRoute hupdated).trans ?_
  unfold updateRoute at hupdated
  split at hupdated
  · rw [← Option.some.inj hupdated] at hzero
    cases hzero
  · next ptr hentry =>
    rw [hentry]
    rfl

/-- A response that reports success is sent when the route has changed. -/
theorem route_of_accepted {id : UInt32} {response : Message σ} (hstep : rt.step input = some rt')
    (hsent : rt'.outbox = rt.outbox ++ [(dest, response)])
    (hbody : response.body = .changeVswitchRouteResponse id 0) :
    ∃ env request key newOutputRtId, input = .message env dest request ∧
      request.body = .changeVswitchRoute key newOutputRtId ∧ request.msgId = id ∧
      rt'.route key = some newOutputRtId := by
  obtain ⟨env, request, hinput, hrequest, hid⟩ : ∃ env request, input = .message env dest request ∧
      request.body.opens = some .changeRoute ∧ request.msgId = id := by
    rcases (step_traffic input hstep).sent with hquiet | ⟨dest', response', hsent', hcause⟩
    · rw [hquiet] at hsent
      exact absurd hsent (by simp)
    · rw [hsent'] at hsent
      obtain ⟨rfl, rfl⟩ := Prod.mk.inj (List.singleton_inj.1 (List.append_cancel_left hsent))
      cases hcause with
      | reply env request _ hinput hopens _ hcloses =>
        rw [hbody, MessageBody.closes] at hcloses
        cases hcloses
        exact ⟨env, request, hinput, hopens, rfl⟩
      | plain _ hnone => simp [hbody, MessageBody.closes] at hnone
      | recovered _ _ _ _ _ _ _ hrecovers => simp [hbody] at hrecovers
      | request _ hopens | ship _ _ hopens => simp [hbody, MessageBody.opens] at hopens
  obtain ⟨key, newOutputRtId, hchange⟩ : ∃ key newOutputRtId,
      request.body = .changeVswitchRoute key newOutputRtId := by
    cases hcase : request.body <;> simp_all [MessageBody.opens]
  refine ⟨env, request, key, newOutputRtId, hinput, hchange, hid, ?_⟩
  subst hinput
  change rt.matchMessage env dest request = some rt' at hstep
  unfold matchMessage at hstep
  split at hstep
  · rw [matchCoordinator, hchange] at hstep
    exact changeVswitchRoute_accepted hstep hsent hbody
  · split at hstep
    · rw [← Option.some.inj hstep] at hsent
      exact absurd hsent (by simp)
    · rw [matchFlowActor, hchange] at hstep
      cases hstep

theorem route_of_bearings (hhtable : rt'.htable = rt.htable) (hbearings : rt'.bearings = rt.bearings)
    (key : FlowKey) : rt'.route key = rt.route key := by
  have hroutes : rt'.routes = rt.routes := congrArg Bearings.routes hbearings
  rw [route, route, hhtable, hroutes]

/-- The answer that ends the wait carries the id in the timer; nothing is sent and no route changes. -/
theorem changeVswitchRouteResponse_leaves {requestMsgId changeRouteSucceed : UInt32}
    (h : rt.changeVswitchRouteResponse env ptr requestMsgId changeRouteSucceed = some rt')
    (hstate : (rt.actors ptr).currentState = .failureProcessing)
    (hleft : (rt'.actors ptr).currentState ≠ .failureProcessing) :
    requestMsgId = (rt.timers ptr .migration).requestMsgId ∧ rt'.outbox = rt.outbox ∧
      ∀ key, rt'.route key = rt.route key := by
  have hstate' : ((rt.invalidate ptr .migration).actors ptr).currentState = .failureProcessing := by
    rw [invalidate, actors_modifyActor]
    exact hstate
  unfold changeVswitchRouteResponse at h
  split at h
  · rw [← Option.some.inj h] at hleft
    exact absurd hstate hleft
  · next hid =>
    split at h
    · rw [if_pos (.inl hstate'), Option.some.injEq] at h
      subst h
      refine ⟨not_not.1 hid, rfl, route_of_bearings rfl ?_⟩
      rw [bearings_abandonMigration, bearings_invalidate]
    · cases h

/-- The input is a request of a runtime to the coordinator about a flow. -/
def asksFor (source : UInt32) (key : FlowKey) : Input σ → Bool
  | .message _ senderRtid message => decide (senderRtid = source ∧
      message.recvActorId = coordinatorActorId ∧ message.body.subject = some key)
  | _ => false

/-- No other actor of the same flow handles the input. -/
def soleRequester (rt : Runtime σ τ) (ptr : ℕ) (input : Input σ) : Bool :=
  (rt.handler input).all fun other ↦
    decide (other = ptr ∨ (rt.actors other).flowKey ≠ (rt.actors ptr).flowKey)

/-- Only requests of one runtime change the route of a flow. -/
def routeHolds (rt : Runtime σ τ) (source : UInt32) (key : FlowKey) (input : Input σ) : Bool :=
  asksFor source key input || (rt.step input).all fun rt' ↦ decide (rt'.route key = rt.route key)

/-- While an actor waits and no other actor of its flow asks, all requests about the flow are for the runtime
itself. -/
theorem reroutes_of_untouched {request : Message σ} (hstep : rt.step input = some rt')
    (hnone : ∀ call ∈ rt.timerCalls input, ¬call.Concerns ptr .migration)
    (hsole : rt.soleRequester ptr input = true) (hsent : rt'.outbox = rt.outbox ++ [(dest, request)])
    (hsubject : request.body.subject = some (rt.actors ptr).flowKey) :
    request.body.reroutes = some ((rt.actors ptr).flowKey, rt.config.runtimeId) := by
  have hasks := MessageBody.asks_of_subject hsubject
  obtain ⟨other, hhandler, hother⟩ := step_asks hstep hsent hasks
  rw [soleRequester, hhandler, Option.all_some, decide_eq_true_eq] at hsole
  obtain rfl : other = ptr := hsole.resolve_right (not_not.2 (hother.subject_eq hsubject).symm)
  obtain ⟨kind, hkind⟩ := Option.isSome_iff_exists.1 hasks
  obtain ⟨ptr', list, msgType, hmem, hhandler', -⟩ := requested_of_sent hstep hsent hkind
  cases hhandler'.symm.trans hhandler
  have hrecovery : kind ≠ .migration := by
    rintro rfl
    exact hnone _ hmem ⟨rfl, rfl⟩
  cases hother with
  | create => simp_all [MessageBody.asks]
  | forward => simp_all [MessageBody.asks]
  | back _ hbody =>
    rw [hbody]
    rfl
  | ship hnosubject => cases hnosubject.symm.trans hsubject
  | recover _ hbody =>
    rw [hbody]
    rfl

end Runtime

end NfvActor.Actor
