import Mathlib.Tactic
import NfvActor.Timers.Identifiers

/-!
# Requests under way

An actor waits for an answer with a timer that holds the id of the request. `follow` keeps, beside the runtime,
the last request that an actor has sent with each timer until it times out or is answered. An actor is known by
its slot and its id: when the id in the slot changes, nothing is under way any more.
-/

namespace NfvActor.Actor

open NfvActor.Foundation
open NfvActor.Actor.Runtime (deadendFlowActor)

/-- The response belongs to the kind of the request. -/
def MessageBody.answers {σ : Type} : MessageBody σ → MessageBody σ → Bool
  | startMigrationResponse _ _, createMigrationTargetActor _ _ _ => true
  | changeVswitchRouteResponse _ _, changeVswitchRoute _ _ => true
  | migrateFlowStateResponse _, migrateFlowState _ => true
  | replicaRecoverResponse _ _, replicaRecover _ _ => true
  | _, _ => false

theorem MessageBody.asks_of_answers {σ : Type} {response request : MessageBody σ} {kind : TimerKind}
    {requestMsgId : UInt32} (hresponse : response.request = some (kind, requestMsgId))
    (h : response.answers request = true) : request.asks = some kind := by
  cases response <;> cases request <;> simp_all [answers, asks, MessageBody.request]

/-- The request that each timer has under way, with the runtime it was sent to. -/
abbrev Pending (σ : Type) := ℕ → TimerKind → Option (UInt32 × Message σ)

namespace Runtime

variable {σ τ : Type} {body : MessageBody σ}

/-- The flow actor that handles the input. -/
def handler (rt : Runtime σ τ) : Input σ → Option ℕ
  | .message _ _ message =>
    if message.recvActorId = coordinatorActorId then none else rt.actoridHtable message.recvActorId
  | .fire _ ptr _ => some ptr
  | .migrationIteration _ => rt.migrationPick
  | .recoveryIteration _ => rt.recoveryPick
  | _ => none

/-- The request that an actor sends with one of its timers in a step. -/
def asked (rt : Runtime σ τ) (input : Input σ) (rt' : Runtime σ τ) : Pending σ := fun ptr kind ↦
  if rt.handler input = some ptr then
    (rt'.outbox.drop rt.outbox.length).find? fun entry ↦ decide (entry.2.body.asks = some kind)
  else
    none

/-- The request under way times out, or is answered by the runtime it was sent to. -/
def concludes (rt : Runtime σ τ) (pending : Pending σ) (ptr : ℕ) (kind : TimerKind) : Input σ → Bool
  | .fire _ ptr' kind' => decide (ptr' = ptr ∧ kind' = kind)
  | .message env senderRtid message =>
    decide (rt.handler (.message env senderRtid message) = some ptr) &&
      match pending ptr kind with
      | some (dest, request) =>
        decide (senderRtid = dest ∧ message.body.request = some (kind, request.msgId))
      | none => false
  | _ => false

/-- What is under way after a step. -/
def follow (rt : Runtime σ τ) (input : Input σ) (rt' : Runtime σ τ) (pending : Pending σ) : Pending σ :=
  fun ptr kind ↦
    if (rt'.actors ptr).actorId = (rt.actors ptr).actorId then
      (rt.asked input rt' ptr kind).or
        (if rt.concludes pending ptr kind input then none else pending ptr kind)
    else
      none

variable {rt : Runtime σ τ} {ptr ptr' : ℕ} {kind : TimerKind} {list : TimerList} {msgId : UInt32}
  {msgType : TimerMessage}

theorem migrationIteration_of_pick (hpick : rt.migrationPick = some ptr) (env : Environment σ) :
      rt.migrationIteration env = (rt.unlink ptr).bind fun rt ↦
      { rt with migration := { rt.migration with
        qouta := rt.migration.qouta - 1
        outgoing := rt.migration.outgoing + 1 } }.startMigration env ptr rt.migration.targetRtId := by
  unfold migrationPick at hpick
  split at hpick
  · cases hpick
  · next hquota =>
    obtain ⟨first, hfirst, hsome⟩ := Option.bind_eq_some_iff.1 hpick
    obtain rfl : first = some ptr := hsome
    rw [migrationIteration, if_neg hquota, hfirst]
    rfl

theorem recoveryIteration_of_pick (hpick : rt.recoveryPick = some ptr) (env : Environment σ) :
      rt.recoveryIteration env = (rt.unlink ptr).bind fun rt ↦
      (rt.startRecover env ptr).map fun rt ↦
        { rt with recovery := { rt.recovery with outGoing := rt.recovery.outGoing + 1 } } := by
  unfold recoveryPick at hpick
  split at hpick
  · cases hpick
  · next hstorage =>
    obtain ⟨head, hhead, hpick⟩ := Option.bind_eq_some_iff.1 hpick
    obtain ⟨first, hfirst, hsome⟩ := Option.bind_eq_some_iff.1 hpick
    obtain rfl : first = some ptr := hsome
    rw [recoveryIteration, if_neg hstorage, hhead, Option.bind_some, hfirst]
    rfl

theorem invalidate_mem_timeoutCalls (rt : Runtime σ τ) (env : Environment σ) (ptr : ℕ)
    (msgType : TimerMessage) : .invalidate ptr msgType.kind ∈ rt.timeoutCalls env ptr msgType := by
  cases msgType <;> simp only [timeoutCalls] <;> first | exact List.mem_cons_self | skip
  all_goals split <;> exact List.mem_cons_self

theorem invalidate_mem_answerCalls (rt : Runtime σ τ) (env : Environment σ) (ptr : ℕ) {requestMsgId : UInt32}
    (h : body.request = some (kind, requestMsgId)) : .invalidate ptr kind ∈ rt.answerCalls env ptr body := by
  cases body with
  | startMigrationResponse | migrateFlowStateResponse | replicaRecoverResponse =>
    obtain ⟨rfl, -⟩ := Prod.mk.inj (Option.some.inj h)
    exact List.mem_cons_self
  | changeVswitchRouteResponse =>
    obtain ⟨rfl, -⟩ := Prod.mk.inj (Option.some.inj h)
    simp only [answerCalls]
    split
    · exact List.mem_cons_self
    · split <;> exact List.mem_cons_self
  | _ => exact absurd h (by simp [MessageBody.request])

theorem add_not_mem_removeCalls : .add ptr' kind list msgId msgType ∉ removeCalls ptr := by
  unfold removeCalls
  split <;> simp

theorem eq_of_add_mem_timeoutCalls {env : Environment σ} {msgType' : TimerMessage}
    (h : .add ptr' kind list msgId msgType ∈ rt.timeoutCalls env ptr msgType') : ptr' = ptr := by
  cases msgType' <;> simp only [timeoutCalls, failureCall] at h
  case checkIdle =>
    split at h
    · exact absurd (List.mem_of_ne_of_mem (by simp) h) add_not_mem_removeCalls
    · simp_all
  case startMigrationTimeout => simp_all
  case migrateFlowStateTimeout => simp_all
  all_goals split at h <;> simp_all

theorem eq_of_add_mem_answerCalls {env : Environment σ}
    (h : .add ptr' kind list msgId msgType ∈ rt.answerCalls env ptr body) : ptr' = ptr := by
  cases body <;> simp only [answerCalls, failureCall] at h
  case changeVswitchRouteResponse =>
    split at h
    · simp_all
    · split at h <;> simp_all
  case migrateFlowStateResponse => simp_all [add_not_mem_removeCalls]
  all_goals simp_all

theorem idle_of_add_mem_initCalls (h : .add ptr kind list msgId msgType ∈ rt.initCalls) : kind = .idle := by
  unfold initCalls at h
  split at h <;> simp_all

/-- A request timer is armed by the actor that handles the input. -/
theorem handler_of_add {input : Input σ} (hkind : kind ≠ .idle)
    (h : .add ptr kind list msgId msgType ∈ rt.timerCalls input) : rt.handler input = some ptr := by
  cases input with
  | packet =>
    simp only [timerCalls] at h
    split at h
    · cases h
    · exact absurd (idle_of_add_mem_initCalls h) hkind
  | message _ _ message =>
    simp only [timerCalls] at h
    split at h
    · unfold coordinatorCalls at h
      split at h
      · exact absurd (idle_of_add_mem_initCalls h) hkind
      · split at h
        · cases h
        · exact absurd (idle_of_add_mem_initCalls h) hkind
      · cases h
    · next hrecv =>
      cases hentry : rt.actoridHtable message.recvActorId with
      | none =>
        rw [hentry] at h
        cases h
      | some =>
        rw [hentry, Option.map_some, Option.getD_some] at h
        rw [handler, if_neg hrecv, hentry]
        unfold flowActorCalls at h
        split at h
        · split at h
          · exact congrArg some (eq_of_add_mem_answerCalls h).symm
          · cases h
        · cases h
  | fire => exact congrArg some (eq_of_add_mem_timeoutCalls h).symm
  | migrationIteration =>
    simp only [timerCalls] at h
    rw [handler]
    split at h
    · next hpick =>
      rw [hpick]
      split at h
      · cases h
      · simp_all
    · cases h
  | recoveryIteration =>
    simp only [timerCalls] at h
    rw [handler]
    split at h
    · next hpick => simp_all
    · cases h
  | _ => cases h

end Runtime

namespace Ledger

variable {σ : Type} {ledger ledger' : Ledger} {ptr : ℕ}

/-- A slot keeps its actor, gets a new one, or loses it together with its armed timers. -/
inductive Tenure (ledger : Ledger) (input : Input σ) (ledger' : Ledger) (ptr : ℕ) : Prop
  | keeps : (ledger'.Live ptr ↔ ledger.Live ptr) →
      (ledger'.cards ptr).actorId = (ledger.cards ptr).actorId →
      (ledger'.cards ptr).flowKey = (ledger.cards ptr).flowKey → Tenure ledger input ledger' ptr
  | begins (ring : RingBuffer ℕ) (key : FlowKey) : ¬ledger.Live ptr → ledger'.Live ptr →
      ledger.allocator.pop = some (ptr, ring) → ledger.Admits input key →
      (ledger'.cards ptr).currentState = .normalProcessing ∨
        (ledger'.cards ptr).currentState = .migrationTarget → Tenure ledger input ledger' ptr
  | ends : ¬ledger'.Live ptr → (ledger'.cards ptr).actorId = invalidFlowActorId →
      (∀ kind, ¬((ledger'.cards ptr).timer kind).Armed) → Tenure ledger input ledger' ptr

variable {input : Input σ}

theorem tenure_of_alters (halters : ledger.Alters ledger' ptr) (hptr : ledger.Tenure input ledger' ptr)
    (other : ℕ) : ledger.Tenure input ledger' other := by
  by_cases heq : other = ptr
  · rw [heq]
    exact hptr
  · exact .keeps (halters.live other heq) (by rw [halters.cards other heq]) (by rw [halters.cards other heq])

theorem Effect.tenure (hsound : ledger.Sound) (h : ledger.Effect input ledger') :
    ∀ ptr, ledger.Tenure input ledger' ptr := by
  cases h.shift hsound with
  | turn ptr card halters hallocator hcard hturn =>
    refine tenure_of_alters halters (.keeps (by rw [Live, Live, hallocator]) ?_ ?_) <;> rw [hcard] <;>
      cases hturn <;> rfl
  | enroll ptr key _ _ hadmitted =>
    obtain ⟨ring, hpop⟩ := hadmitted.popped
    refine tenure_of_alters hadmitted.alters
      (.begins ring key hadmitted.free hadmitted.live hpop hadmitted.admits ?_)
    rw [hadmitted.card]
    exact hadmitted.starts
  | dismiss ptr hdismissed =>
    exact tenure_of_alters hdismissed.alters (.ends hdismissed.gone hdismissed.id hdismissed.off)

end Ledger

/-! ## Timers and the requests they wait for -/

namespace Runtime

variable {σ τ : Type} {request : Message σ} {message : Message σ} {requestMsgId : UInt32}

/-- A request timer holds the id of a request that has been sent. -/
structure WaitsFor (rt : Runtime σ τ) (ptr : ℕ) (kind : TimerKind) (dest : UInt32)
    (request : Message σ) : Prop where
  request_kind : kind ≠ .idle
  sent : (dest, request) ∈ rt.outbox
  asks : request.body.asks.isSome = true
  timer : (rt.timers ptr kind).requestMsgId = request.msgId

/-- A timer that holds the id of a request of its actor waits for the request under way. -/
structure Tracked (rt : Runtime σ τ) (pending : Pending σ) : Prop where
  sound : rt.ledger.Sound
  start : 2 ≤ idBound rt.nextMsgId
  armed : ∀ ptr kind, kind ≠ .idle → (rt.timers ptr kind).Armed →
    (rt.timers ptr kind).requestMsgId.toNat < idBound rt.nextMsgId
  numbered : ∀ dest request, (dest, request) ∈ rt.outbox → request.body.asks.isSome = true →
    2 ≤ request.msgId.toNat ∧ request.msgId.toNat < idBound rt.nextMsgId
  free : ∀ ptr, ¬rt.ledger.Live ptr → (rt.actors ptr).actorId = invalidFlowActorId
  stray : ∀ ptr kind dest request, ¬rt.ledger.Live ptr → rt.WaitsFor ptr kind dest request →
    request.sendActorId = invalidFlowActorId
  awaited : ∀ ptr kind dest request, rt.WaitsFor ptr kind dest request →
    request.sendActorId = (rt.actors ptr).actorId → pending ptr kind = some (dest, request)

variable {rt rt' : Runtime σ τ} {kind : TimerKind}

/-- A request sent has an id from the counter, with which its actor arms the timer. -/
theorem requested_of_sent {input : Input σ} (hstep : rt.step input = some rt') {dest : UInt32}
    (hsent : rt'.outbox = rt.outbox ++ [(dest, request)]) (hasks : request.body.asks = some kind) :
    ∃ ptr list msgType, .add ptr kind list request.msgId msgType ∈ rt.timerCalls input ∧
      rt.handler input = some ptr ∧ rt.Requested rt' ptr kind request.msgId := by
  have hmakes := step_makes input hstep
  obtain ⟨ptr, list, msgType, hmem⟩ := hmakes.asked dest request kind hsent hasks
  have hkind : kind ≠ .idle := by
    rintro rfl
    cases hbody : request.body <;> simp [hbody, MessageBody.asks] at hasks
  rcases hmakes.arms _ hmem with hidle | hrequest
  · exact absurd hidle.1 hkind
  · exact ⟨ptr, list, msgType, hmem, handler_of_add hkind hmem, hrequest.2.2⟩

/-- Requests that have been sent have ids below the counter. -/
theorem numbered_step {input : Input σ} (hstart : 2 ≤ idBound rt.nextMsgId)
    (h : ∀ dest request, (dest, request) ∈ rt.outbox → request.body.asks.isSome = true → 2 ≤
      request.msgId.toNat ∧ request.msgId.toNat < idBound rt.nextMsgId)
    (hstep : rt.step input = some rt') (hle : idBound rt.nextMsgId ≤ idBound rt'.nextMsgId) (dest : UInt32)
    (request : Message σ) (hmem : (dest, request) ∈ rt'.outbox) (hasks : request.body.asks.isSome = true) :
    2 ≤ request.msgId.toNat ∧ request.msgId.toNat < idBound rt'.nextMsgId := by
  rcases (step_traffic input hstep).sent_cases hmem with hold | ⟨hsent, -⟩
  · obtain ⟨htwo, hlt⟩ := h dest request hold hasks
    exact ⟨htwo, hlt.trans_le hle⟩
  · obtain ⟨kind, hkind⟩ := Option.isSome_iff_exists.1 hasks
    obtain ⟨ptr, list, msgType, -, -, hrequested⟩ := requested_of_sent hstep hsent hkind
    obtain ⟨hfrom, hlt⟩ := hrequested.toNat_lt hle
    exact ⟨hstart.trans hfrom, hlt⟩

theorem WaitsFor.armed {ptr : ℕ} {dest : UInt32} (h : rt.WaitsFor ptr kind dest request)
    (htwo : 2 ≤ request.msgId.toNat) : (rt.timers ptr kind).Armed := by
  intro hoff
  rw [← h.timer, hoff] at htwo
  exact absurd htwo (by decide)

/-- A response with another id than the timer is ignored. -/
theorem matchFlowActor_stale (rt : Runtime σ τ) (env : Environment σ) (senderRtid : UInt32) {ptr : ℕ}
    (hresponse : message.body.request = some (kind, requestMsgId))
    (hstale : requestMsgId ≠ ((rt.actors ptr).timer kind).requestMsgId) :
    rt.matchFlowActor env senderRtid ptr message = some rt := by
  unfold matchFlowActor
  cases hbody : message.body with
  | startMigrationResponse | changeVswitchRouteResponse | migrateFlowStateResponse | replicaRecoverResponse =>
    rw [hbody] at hresponse
    cases hresponse
    exact if_pos hstale
  | _ => exact absurd hresponse (by simp [hbody, MessageBody.request])

/-- A response that changes anything reaches an actor whose timer holds its id. -/
theorem timer_of_response {env : Environment σ} {senderRtid : UInt32}
    (hresponse : message.body.request = some (kind, requestMsgId))
    (hstep : rt.step (.message env senderRtid message) = some rt') (hchange : rt' ≠ rt) :
    ∃ ptr, rt.actoridHtable message.recvActorId = some ptr ∧
      (rt.timers ptr kind).requestMsgId = requestMsgId := by
  change rt.matchMessage env senderRtid message = some rt' at hstep
  unfold matchMessage at hstep
  split at hstep
  · unfold matchCoordinator at hstep
    cases hbody : message.body <;> simp_all [MessageBody.request]
  · split at hstep
    · exact absurd (Option.some.inj hstep).symm hchange
    · next ptr hentry =>
      refine ⟨ptr, hentry, ?_⟩
      by_contra hstale
      rw [matchFlowActor_stale rt env senderRtid hresponse (Ne.symm hstale)] at hstep
      exact hchange (Option.some.inj hstep).symm

namespace Tracked

variable {rt rt' : Runtime σ τ} {pending : Pending σ} {input : Input σ} {ptr : ℕ} {kind : TimerKind}
  {dest : UInt32} {request : Message σ}

/-- A timer that waits for a request waited for it before and no call was about it, or the handling actor has
sent the request. -/
theorem waitsFor_cases (h : rt.Tracked pending) (hstep : rt.step input = some rt')
    (hle : idBound rt.nextMsgId ≤ idBound rt'.nextMsgId) (hwaits : rt'.WaitsFor ptr kind dest request) :
    rt.WaitsFor ptr kind dest request ∧ (∀ call ∈ rt.timerCalls input, ¬call.Concerns ptr kind) ∨
      rt.handler input = some ptr ∧ rt'.outbox = rt.outbox ++ [(dest, request)] ∧
        request.body.asks = some kind ∧ request.sendActorId = (rt.actors ptr).actorId := by
  have hmakes := step_makes input hstep
  have hnumber := numbered_step h.start h.numbered hstep hle dest request hwaits.sent hwaits.asks
  rcases TimerTable.calls_cases hmakes.run ptr kind with
    ⟨hnone, hsame⟩ | hoff | ⟨list, msgId, msgType, hmem, hon⟩
  · left
    have htimer : (rt.timers ptr kind).requestMsgId = request.msgId := by
      rw [← hsame]
      exact hwaits.timer
    have hon : (rt.timers ptr kind).Armed := by
      rw [← hsame]
      exact hwaits.armed hnumber.1
    have hbelow : request.msgId.toNat < idBound rt.nextMsgId := by
      rw [← htimer]
      exact h.armed ptr kind hwaits.request_kind hon
    refine ⟨⟨hwaits.request_kind, ?_, hwaits.asks, htimer⟩, hnone⟩
    rcases (step_traffic input hstep).sent_cases hwaits.sent with hold | ⟨hsent, -⟩
    · exact hold
    · obtain ⟨asked, hasked⟩ := Option.isSome_iff_exists.1 hwaits.asks
      obtain ⟨_, _, _, -, -, hrequested⟩ := requested_of_sent hstep hsent hasked
      exact absurd (hrequested.toNat_lt hle).1 (not_le.2 hbelow)
  · exact absurd hoff (hwaits.armed hnumber.1)
  · right
    have hid : msgId = request.msgId := by
      rw [← hwaits.timer, hon]
    subst hid
    rcases hmakes.arms _ hmem with hidle | hrequest
    · exact absurd hidle.1 hwaits.request_kind
    · have hfrom := (hrequest.2.2.toNat_lt hle).1
      have hold : (dest, request) ∉ rt.outbox := fun hold ↦
        absurd hfrom (not_le.2 (h.numbered dest request hold hwaits.asks).2)
      rcases hrequest.2.2.sent with hquiet | ⟨dest', recvActorId, body, hasks, hsent⟩
      · exact absurd (hquiet ▸ hwaits.sent) hold
      · have hnew := hwaits.sent
        rw [hsent, List.mem_append, List.mem_singleton] at hnew
        rcases hnew with hbefore | hnew
        · exact absurd hbefore hold
        · obtain ⟨rfl, hrequest'⟩ := Prod.mk.inj hnew
          refine ⟨handler_of_add hwaits.request_kind hmem, ?_, ?_, ?_⟩
          · rw [hsent, ← hrequest']
          · rw [hrequest']
            exact hasks
          · rw [hrequest']

/-- An input that ends the wait of an armed timer makes a call about it. -/
theorem concerns_of_concludes (h : rt.Tracked pending) (hwaits : rt.WaitsFor ptr kind dest request)
    (hpending : pending ptr kind = some (dest, request))
    (hconcludes : rt.concludes pending ptr kind input = true) :
    ∃ call ∈ rt.timerCalls input, call.Concerns ptr kind := by
  cases input with
  | fire env ptr' kind' =>
    obtain ⟨rfl, rfl⟩ := of_decide_eq_true hconcludes
    have htimer : (rt.ledger.cards ptr').timer kind' = (rt.actors ptr').timer kind' := card_timer _ _
    have hon : ((rt.actors ptr').timer kind').Armed :=
      hwaits.armed (h.numbered dest request hwaits.sent hwaits.asks).1
    rw [← htimer] at hon
    have htyped := h.sound.typed ptr' kind' hon
    rw [htimer] at htyped
    refine ⟨_, rt.invalidate_mem_timeoutCalls env ptr' ((rt.actors ptr').timer kind').msgType, rfl, ?_⟩
    exact htyped
  | message env =>
    rw [concludes, hpending, Bool.and_eq_true, decide_eq_true_eq, decide_eq_true_eq] at hconcludes
    obtain ⟨hhandler, -, hbody⟩ := hconcludes
    rw [handler] at hhandler
    split at hhandler
    · cases hhandler
    · next hrecv =>
      refine ⟨.invalidate ptr kind, ?_, rfl, rfl⟩
      have hid : request.msgId = ((rt.actors ptr).timer kind).requestMsgId := hwaits.timer.symm
      simp only [timerCalls, if_neg hrecv, hhandler, Option.map_some, Option.getD_some, flowActorCalls,
        hbody, if_pos hid]
      exact rt.invalidate_mem_answerCalls env ptr hbody
  | _ => exact absurd hconcludes (by simp [concludes])

theorem follow_of_untouched (h : rt.Tracked pending) (hstep : rt.step input = some rt')
    (hwaits : rt.WaitsFor ptr kind dest request) (hpending : pending ptr kind = some (dest, request))
    (huntouched : ∀ call ∈ rt.timerCalls input, ¬call.Concerns ptr kind)
    (hactor : (rt'.actors ptr).actorId = (rt.actors ptr).actorId) :
    rt.follow input rt' pending ptr kind = some (dest, request) := by
  have hasked : rt.asked input rt' ptr kind = none := by
    unfold asked
    split
    · next hhandler =>
      rw [List.find?_eq_none]
      intro entry hentry hasks
      rcases (step_traffic input hstep).sent with hquiet | ⟨dest', message, hsent, -⟩
      · rw [hquiet, List.drop_length] at hentry
        cases hentry
      · rw [hsent, List.drop_left, List.mem_singleton] at hentry
        rw [hentry, decide_eq_true_eq] at hasks
        obtain ⟨ptr', list, msgType, hmem, hhandler', -⟩ := requested_of_sent hstep hsent hasks
        rw [hhandler, Option.some.injEq] at hhandler'
        exact huntouched _ hmem ⟨hhandler'.symm, rfl⟩
    · rfl
  have hopen : rt.concludes pending ptr kind input = false := by
    rw [← Bool.not_eq_true]
    intro hconcludes
    obtain ⟨call, hmem, hconcerns⟩ := h.concerns_of_concludes hwaits hpending hconcludes
    exact huntouched call hmem hconcerns
  rw [follow, if_pos hactor, hasked, hopen, Option.none_or, hpending]
  rfl

/-- A request that an actor sends in a step is under way after it. -/
theorem follow_of_sent (hhandler : rt.handler input = some ptr)
    (hsent : rt'.outbox = rt.outbox ++ [(dest, request)]) (hasks : request.body.asks = some kind)
    (hactor : (rt'.actors ptr).actorId = (rt.actors ptr).actorId) :
    rt.follow input rt' pending ptr kind = some (dest, request) := by
  have hasked : rt.asked input rt' ptr kind = some (dest, request) := by
    rw [asked, if_pos hhandler, hsent, List.drop_left]
    simp [hasks]
  rw [follow, if_pos hactor, hasked, Option.some_or]

theorem step (h : rt.Tracked pending) (hids : rt.messageIdsHold input = true)
    (hstep : rt.step input = some rt') : rt'.Tracked (rt.follow input rt' pending) := by
  have hle := idBound_mono hids hstep
  have heffect := step_effect h.sound.blank input hstep
  have htenure : ∀ ptr, rt.ledger.Tenure input rt'.ledger ptr := heffect.tenure h.sound
  have hnumbered := numbered_step h.start h.numbered hstep hle
  have hfree : ∀ ptr, ¬rt'.ledger.Live ptr → (rt'.actors ptr).actorId = invalidFlowActorId := by
    intro ptr hgone
    cases htenure ptr with
    | keeps hlive hactor => exact hactor.trans (h.free ptr fun hlive' ↦ hgone (hlive.2 hlive'))
    | begins _ _ _ hlive => exact absurd hlive hgone
    | ends _ hactor => exact hactor
  have hon : ∀ ptr kind dest request, rt'.WaitsFor ptr kind dest request →
      ((rt'.ledger.cards ptr).timer kind).Armed := by
    intro ptr kind dest request hwaits
    have htimer : (rt'.ledger.cards ptr).timer kind = rt'.timers ptr kind := card_timer _ _
    rw [htimer]
    exact hwaits.armed (hnumbered dest request hwaits.sent hwaits.asks).1
  refine ⟨h.sound.effect heffect, h.start.trans hle, armedBelow_step h.armed hstep hle, hnumbered, hfree,
    ?_, ?_⟩
  · intro ptr kind dest request hgone hwaits
    have hbefore : ¬rt.ledger.Live ptr := by
      cases htenure ptr with
      | keeps hlive => exact fun hlive' ↦ hgone (hlive.2 hlive')
      | begins _ _ hfree' => exact hfree'
      | ends _ _ hoff => exact absurd (hon ptr kind dest request hwaits) (hoff kind)
    rcases h.waitsFor_cases hstep hle hwaits with ⟨hold, -⟩ | ⟨-, -, -, hsender⟩
    · exact h.stray ptr kind dest request hbefore hold
    · exact hsender.trans (h.free ptr hbefore)
  · intro ptr kind dest request hwaits hown
    rcases h.waitsFor_cases hstep hle hwaits with ⟨hold, huntouched⟩ | ⟨hhandler, hsent, hasks, hsender⟩
    · have hactor : (rt'.actors ptr).actorId = (rt.actors ptr).actorId := by
        cases htenure ptr with
        | keeps _ hactor => exact hactor
        | begins _ _ hfree' =>
          exact (hown.symm.trans (h.stray ptr kind dest request hfree' hold)).trans (h.free ptr hfree').symm
        | ends _ _ hoff => exact absurd (hon ptr kind dest request hwaits) (hoff kind)
      exact h.follow_of_untouched hstep hold (h.awaited ptr kind dest request hold (hown.trans hactor))
        huntouched hactor
    · exact follow_of_sent hhandler hsent hasks (hown.symm.trans hsender)

theorem boot (config : RuntimeConfig) (serviceChain : List ℕ) (code : ℕ → NetworkFunction σ τ)
    (zero : ℕ → σ) (sharedState : ℕ → τ) :
    (Runtime.boot config serviceChain code zero sharedState).Tracked fun _ _ ↦ none := by
  have hidentified := identified_boot config serviceChain code zero sharedState
  refine ⟨hidentified.sound, hidentified.message, hidentified.armed, ?_, ?_, ?_, ?_⟩
  · exact fun _ _ hmem ↦ absurd hmem List.not_mem_nil
  · intro ptr hfree
    have hptr : ptr ≠ deadendFlowActor := by
      rintro rfl
      exact hfree hidentified.sound.deadend_live
    simp only [Runtime.boot, Function.update_of_ne hptr]
    rfl
  · exact fun _ _ _ _ _ hwaits ↦ absurd hwaits.sent List.not_mem_nil
  · exact fun _ _ _ _ hwaits ↦ absurd hwaits.sent List.not_mem_nil

end Tracked

end Runtime

end NfvActor.Actor
