import Mathlib.Tactic
import NfvActor.Migration.Traffic

/-!
# The timer calls of a step

Timers are touched by two functions only: `add_timer` arms and links a timer, `invalidate` disarms and unlinks
it. `timerCalls` lists the calls of a step in the order of the source, whether or not the assertion of
`add_timer` holds, and `Runtime.step_timers` connects it with the handlers.
-/

namespace NfvActor.Actor

open NfvActor.Foundation
open NfvActor.Reliable (Packet)
open Function
open Option (bind_eq_some_iff map_eq_some_iff)

/-- `idle_flow_list_` and `req_timer_list_`. -/
inductive TimerList
  | idleFlows
  | requests
deriving DecidableEq, Repr

inductive TimerCall
  | add (ptr : ℕ) (kind : TimerKind) (list : TimerList) (requestMsgId : UInt32) (msgType : TimerMessage)
  | invalidate (ptr : ℕ) (kind : TimerKind)
deriving DecidableEq, Repr

/-- The call is about one timer. -/
def TimerCall.Concerns (ptr : ℕ) (kind : TimerKind) : TimerCall → Prop
  | add ptr' kind' _ _ _ => ptr' = ptr ∧ kind' = kind
  | invalidate ptr' kind' => ptr' = ptr ∧ kind' = kind

/-- The timer with which the sender of a message waits for the answer. -/
def MessageBody.asks {σ : Type} : MessageBody σ → Option TimerKind
  | createMigrationTargetActor _ _ _ => some .migration
  | changeVswitchRoute _ _ => some .migration
  | migrateFlowState _ => some .migration
  | replicaRecover _ _ => some .replication
  | _ => none

/-- The timers of all actors. -/
abbrev TimerTable := ℕ → TimerKind → ActorTimer

namespace TimerTable

def set (table : TimerTable) (ptr : ℕ) (kind : TimerKind) (timer : ActorTimer) : TimerTable :=
  update table ptr (update (table ptr) kind timer)

/-- One call; `add_timer` asserts that the timer is not armed. -/
def call (table : TimerTable) : TimerCall → Option TimerTable
  | .add ptr kind _ requestMsgId msgType =>
    if (table ptr kind).requestMsgId = invalidMessageId then
      some (table.set ptr kind ⟨requestMsgId, msgType⟩)
    else
      none
  | .invalidate ptr kind => some (table.set ptr kind (table ptr kind).invalidate)

/-- The calls are made one after the other. -/
def calls (table : TimerTable) : List TimerCall → Option TimerTable
  | [] => some table
  | first :: rest => (table.call first).bind fun table' ↦ table'.calls rest

variable {table table' : TimerTable}

theorem calls_cons {call : TimerCall} (rest : List TimerCall)
    (h : table.call call = some table') : table.calls (call :: rest) = table'.calls rest := by
  rw [calls, h]
  rfl

theorem calls_append (table : TimerTable) (first rest : List TimerCall) :
    table.calls (first ++ rest) = (table.calls first).bind fun table' ↦ table'.calls rest := by
  induction first generalizing table with
  | nil => rfl
  | cons _ _ ih =>
    rw [List.cons_append, calls, calls, Option.bind_assoc]
    exact congrArg _ (funext fun table' ↦ ih table')

theorem set_apply (table : TimerTable) (ptr : ℕ) (kind : TimerKind) (timer : ActorTimer) (ptr' : ℕ)
    (kind' : TimerKind) :
    table.set ptr kind timer ptr' kind' = if ptr' = ptr ∧ kind' = kind then timer else table ptr' kind' := by
  by_cases hptr : ptr' = ptr
  · subst hptr
    by_cases hkind : kind' = kind <;> simp [set, hkind]
  · simp [set, hptr]

/-- A timer that no call is about stays; otherwise it is disarmed, or armed by its call. -/
theorem calls_cases {calls : List TimerCall} (h : table.calls calls = some table') (ptr : ℕ)
    (kind : TimerKind) :
    (∀ call ∈ calls, ¬call.Concerns ptr kind) ∧ table' ptr kind = table ptr kind ∨
      (table' ptr kind).requestMsgId = invalidMessageId ∨
      ∃ list requestMsgId msgType, .add ptr kind list requestMsgId msgType ∈ calls ∧
        table' ptr kind = ⟨requestMsgId, msgType⟩ := by
  induction calls generalizing table with
  | nil => exact .inl ⟨by simp, congrFun (congrFun (Option.some.inj h).symm ptr) kind⟩
  | cons call _ ih =>
    obtain ⟨mid, hcall, hrest⟩ := bind_eq_some_iff.1 h
    rcases ih hrest with ⟨hnone, hsame⟩ | hoff | ⟨list, requestMsgId, msgType, hmem, hon⟩
    · cases call with
      | add _ _ list requestMsgId msgType =>
        rw [TimerTable.call] at hcall
        split at hcall
        · rw [hsame, ← Option.some.inj hcall]
          rw [set_apply]
          split
          · next heq =>
            obtain ⟨rfl, rfl⟩ := heq
            exact .inr (.inr ⟨list, requestMsgId, msgType, List.mem_cons_self, rfl⟩)
          · next hne =>
            exact .inl ⟨List.forall_mem_cons.2 ⟨fun heq ↦ hne ⟨heq.1.symm, heq.2.symm⟩, hnone⟩, rfl⟩
        · cases hcall
      | invalidate =>
        rw [hsame, ← Option.some.inj hcall]
        rw [set_apply]
        split
        · exact .inr (.inl rfl)
        · next hne =>
          exact .inl ⟨List.forall_mem_cons.2 ⟨fun heq ↦ hne ⟨heq.1.symm, heq.2.symm⟩, hnone⟩, rfl⟩
    · exact .inr (.inl hoff)
    · exact .inr (.inr ⟨list, requestMsgId, msgType, List.mem_cons_of_mem _ hmem, hon⟩)

end TimerTable

namespace Runtime

variable {σ τ : Type} {change : FlowActor → FlowActor} {input : Input σ}

def timers (rt : Runtime σ τ) : TimerTable := fun ptr ↦ (rt.actors ptr).timer

/-- The calls of `remove_flow_t`. -/
def removeCalls (ptr : ℕ) : List TimerCall :=
  if ptr = deadendFlowActor then []
  else [.invalidate ptr .idle, .invalidate ptr .migration, .invalidate ptr .replication]

/-- The call that ends the three init messages. -/
def initCalls (rt : Runtime σ τ) : List TimerCall :=
  match rt.allocator.pop with
  | some (ptr, _) => [.add ptr .idle .idleFlows idleMessageId .checkIdle]
  | none => []

/-- The calls for a message to the coordinator. -/
def coordinatorCalls (rt : Runtime σ τ) (message : Message σ) : List TimerCall :=
  match message.body with
  | .createMigrationTargetActor _ _ _ => rt.initCalls
  | .replication _ _ key _ _ => if (rt.htable key).isSome then [] else rt.initCalls
  | _ => []

/-- The call of `failure_handling`. -/
def failureCall (ptr : ℕ) (msgId : UInt32) : TimerCall :=
  .add ptr .migration .idleFlows msgId .changeVswitchRouteTimeout

/-- The calls for a response that carries the id of its timer. -/
def answerCalls (rt : Runtime σ τ) (env : Environment σ) (ptr : ℕ) : MessageBody σ → List TimerCall
  | .startMigrationResponse _ _ =>
    [.invalidate ptr .migration,
      .add ptr .migration .requests rt.nextMsgId .changeVswitchRouteTimeout]
  | .changeVswitchRouteResponse _ changeRouteSucceed =>
    if (rt.actors ptr).currentState = .failureProcessing ∨ changeRouteSucceed = 1 then
      [.invalidate ptr .migration]
    else if (env.reliables rt.migration.targetRtId).any (fun peer ↦ peer.connectionUp && env.sendOk) then
      [.invalidate ptr .migration,
        .add ptr .migration .requests rt.nextMsgId .migrateFlowStateTimeout]
    else
      [.invalidate ptr .migration, failureCall ptr (rt.nextMsgId + 1)]
  | .migrateFlowStateResponse _ => [.invalidate ptr .migration, .invalidate ptr .idle] ++ removeCalls ptr
  | .replicaRecoverResponse _ _ => [.invalidate ptr .replication]
  | _ => []

/-- The calls for a message to a flow actor; a response with another id is discarded. -/
def flowActorCalls (rt : Runtime σ τ) (env : Environment σ) (ptr : ℕ) (message : Message σ) :
    List TimerCall :=
  match message.body.request with
  | some (kind, requestMsgId) =>
    if requestMsgId = ((rt.actors ptr).timer kind).requestMsgId then rt.answerCalls env ptr message.body
    else []
  | none => []

/-- The calls of the message that an armed timer triggers. -/
def timeoutCalls (rt : Runtime σ τ) (env : Environment σ) (ptr : ℕ) : TimerMessage → List TimerCall
  | .checkIdle =>
    let actor := rt.actors ptr
    if actor.currentState.code % 2 = 1 ∧ actor.sampleCounter = actor.pktCounter then
      .invalidate ptr .idle :: removeCalls ptr
    else
      [.invalidate ptr .idle, .add ptr .idle .idleFlows idleMessageId .checkIdle]
  | .startMigrationTimeout => [.invalidate ptr .migration]
  | .changeVswitchRouteTimeout =>
    if (env.reliables (rt.actors ptr).inputHeader.destRtid).any PeerView.connectionUp then
      [.invalidate ptr .migration, failureCall ptr rt.nextMsgId]
    else
      [.invalidate ptr .migration]
  | .migrateFlowStateTimeout => [.invalidate ptr .migration, failureCall ptr rt.nextMsgId]
  | .replicaRecoverTimeout =>
    if (env.reliables (rt.actors ptr).inputHeader.destRtid).any PeerView.connectionUp then
      [.invalidate ptr .replication,
        .add ptr .replication .requests rt.nextMsgId .replicaRecoverTimeout]
    else
      [.invalidate ptr .replication]

/-- The calls of a step, in the order of the source. -/
def timerCalls (rt : Runtime σ τ) : Input σ → List TimerCall
  | .packet _ pkt => if (rt.htable (flowKeyOf pkt)).isSome then [] else rt.initCalls
  | .message env _ message =>
    if message.recvActorId = coordinatorActorId then rt.coordinatorCalls message
    else ((rt.actoridHtable message.recvActorId).map fun ptr ↦ rt.flowActorCalls env ptr message).getD []
  | .fire env ptr kind => rt.timeoutCalls env ptr ((rt.actors ptr).timer kind).msgType
  | .migrationIteration _ =>
    match rt.migrationPick with
    | some ptr =>
      if (rt.actors ptr).replicationState = .haveReplica then []
      else [.add ptr .migration .requests rt.nextMsgId .startMigrationTimeout]
    | none => []
  | .recoveryIteration _ =>
    match rt.recoveryPick with
    | some ptr => [.add ptr .replication .requests rt.nextMsgId .replicaRecoverTimeout]
    | none => []
  | _ => []

variable {rt rt' base : Runtime σ τ} {ptr : ℕ} {kind : TimerKind}
  {requestMsgId sendActorId recvActorId senderRtid : UInt32} {env : Environment σ} {sendOk : Bool}
  {body : MessageBody σ} {sent : Bool × Runtime σ τ} {calls : List TimerCall} {pkt : Packet}

theorem timers_of_ledger (h : rt'.ledger.cards = rt.ledger.cards) : rt'.timers = rt.timers := by
  funext ptr kind
  have hcard : (rt'.actors ptr).card = (rt.actors ptr).card := congrFun h ptr
  rw [timers, timers, ← card_timer, hcard, card_timer]

theorem timers_of_actors (h : rt'.actors = rt.actors) : rt'.timers = rt.timers := by
  funext ptr
  exact congrArg FlowActor.timer (congrFun h ptr)

theorem timers_modifyActor (rt : Runtime σ τ) (ptr : ℕ)
    (h : (change (rt.actors ptr)).timer = (rt.actors ptr).timer) :
    (rt.modifyActor ptr change).timers = rt.timers := by
  funext other
  simp only [timers, modifyActor, update_apply]
  split
  · next heq => rw [h, heq]
  · rfl

/-- Only the timers of the changed actor matter. -/
theorem timers_congr {change change' : FlowActor → FlowActor}
    (h : (change (rt.actors ptr)).timer = (change' (rt.actors ptr)).timer) :
    (rt.modifyActor ptr change).timers = (rt.modifyActor ptr change').timers := by
  funext other
  simp only [timers, modifyActor, update_apply]
  split
  · exact h
  · rfl

theorem timers_enter (rt : Runtime σ τ) (ptr : ℕ) (state : FlowState) : (rt.enter ptr state).timers = rt.timers :=
  timers_modifyActor rt ptr rfl

theorem timers_setTimer (rt : Runtime σ τ) (ptr : ℕ) (kind : TimerKind) (timer : ActorTimer) :
    (rt.modifyActor ptr fun actor ↦ actor.setTimer kind timer).timers = rt.timers.set ptr kind timer := by
  funext other kind'
  simp only [timers, modifyActor, TimerTable.set, update_apply]
  split
  · simp only [update_apply]
    cases kind <;> cases kind' <;> rfl
  · rfl

theorem call_invalidate (rt : Runtime σ τ) (ptr : ℕ) (kind : TimerKind) :
    rt.timers.call (.invalidate ptr kind) = some (rt.invalidate ptr kind).timers := by
  rw [TimerTable.call, invalidate]
  exact congrArg some (timers_setTimer rt ptr kind _).symm

theorem call_setTimer (timer : ActorTimer) (list : TimerList) (hidle : ¬((rt.actors ptr).timer kind).Armed) :
    rt.timers.call (.add ptr kind list timer.requestMsgId timer.msgType) =
      some (rt.modifyActor ptr fun actor ↦ actor.setTimer kind timer).timers := by
  rw [timers_setTimer]
  exact if_pos (not_not.1 hidle)

/-- A request was given a new message id, and was sent if there was room. -/
structure Requested (rt rt' : Runtime σ τ) (ptr : ℕ) (kind : TimerKind) (msgId : UInt32) : Prop where
  fresh : msgId = rt.nextMsgId ∨ msgId = rt.nextMsgId + 1
  next : rt'.nextMsgId = msgId + 1
  sent : rt'.outbox = rt.outbox ∨ ∃ dest recvActorId body, body.asks = some kind ∧
    rt'.outbox = rt.outbox ++ [(dest, ⟨(rt.actors ptr).actorId, recvActorId, msgId, body⟩)]

/-- The call leaves the timers for requests disarmed. -/
def IdleCall : TimerCall → Prop
  | .add _ kind list msgId msgType =>
    kind = .idle ∧ list = .idleFlows ∧ msgId = idleMessageId ∧ msgType = .checkIdle
  | .invalidate _ _ => True

/-- The call arms a timer with the id of a request of the step. -/
def RequestCall (rt rt' : Runtime σ τ) : TimerCall → Prop
  | .add ptr kind _ msgId msgType => kind ≠ .idle ∧ msgType.kind = kind ∧ rt.Requested rt' ptr kind msgId
  | .invalidate _ _ => False

/-- The calls account for the timers of the next state, the ids in them and every request sent. -/
structure Makes (rt : Runtime σ τ) (calls : List TimerCall) (rt' : Runtime σ τ) : Prop where
  run : rt.timers.calls calls = some rt'.timers
  arms : ∀ call ∈ calls, IdleCall call ∨ rt.RequestCall rt' call
  asked : ∀ dest message kind, rt'.outbox = rt.outbox ++ [(dest, message)] →
    message.body.asks = some kind →
      ∃ ptr list msgType, .add ptr kind list message.msgId msgType ∈ calls

/-- No request is sent. -/
def AsksNothing (rt rt' : Runtime σ τ) : Prop :=
  rt'.outbox = rt.outbox ∨
    ∃ dest message, rt'.outbox = rt.outbox ++ [(dest, message)] ∧ message.body.asks = none

namespace Makes

variable {rt rt' : Runtime σ τ} {calls : List TimerCall}

theorem of_asksNothing (hrun : rt.timers.calls calls = some rt'.timers)
    (hidle : ∀ call ∈ calls, IdleCall call) (hsent : rt.AsksNothing rt') : rt.Makes calls rt' where
  run := hrun
  arms call hmem := .inl (hidle call hmem)
  asked dest message kind hout hasks := by
    exfalso
    rcases hsent with hsame | ⟨dest', message', hout', hnone⟩
    · exact absurd (hsame.symm.trans hout) (by simp)
    · have heq := List.append_cancel_left (hout.symm.trans hout')
      simp only [List.cons.injEq, Prod.mk.injEq, and_true] at heq
      rw [heq.2, hnone] at hasks
      cases hasks

theorem none (htimers : rt'.timers = rt.timers) (hsent : rt.AsksNothing rt') : rt.Makes [] rt' :=
  of_asksNothing (congrArg some htimers.symm) (by simp) hsent

/-- The last call arms the timer for a request. -/
theorem of_request {ptr : ℕ} {kind : TimerKind} {list : TimerList} {msgId : UInt32} {msgType : TimerMessage}
    (hrun : rt.timers.calls (calls ++ [.add ptr kind list msgId msgType]) = some rt'.timers)
    (hidle : ∀ call ∈ calls, IdleCall call) (hrequest : rt.RequestCall rt' (.add ptr kind list msgId msgType)) :
    rt.Makes (calls ++ [.add ptr kind list msgId msgType]) rt' where
  run := hrun
  arms call hmem := by
    rcases List.mem_append.1 hmem with hbefore | hlast
    · exact .inl (hidle call hbefore)
    · exact .inr (List.mem_singleton.1 hlast ▸ hrequest)
  asked dest message kind' hout hasks := by
    rcases hrequest.2.2.sent with hsame | ⟨dest', recvActorId, body, hbody, hout'⟩
    · exact absurd (hsame.symm.trans hout) (by simp)
    · have heq := List.append_cancel_left (hout.symm.trans hout')
      simp only [List.cons.injEq, Prod.mk.injEq, and_true] at heq
      rw [heq.2] at hasks ⊢
      have hkind : kind' = kind := Option.some.inj (hasks.symm.trans hbody)
      exact ⟨ptr, list, msgType, by simp [hkind]⟩

end Makes

/-! ## Steps -/

theorem asks_ne_idle {body : MessageBody σ} (h : body.asks = some kind) : kind ≠ .idle := by
  cases body <;> cases h <;> decide

theorem makes_ask (base : Runtime σ τ) {sent : Bool} (asked : Request σ) (list : TimerList)
    (hrun : rt.timers.calls calls = some base.timers) (hcalls : ∀ call ∈ calls, IdleCall call)
    (hidle : ¬((base.actors ptr).timer asked.msgType.kind).Armed)
    (hids : base.nextMsgId = rt.nextMsgId ∨ base.nextMsgId = rt.nextMsgId + 1)
    (houtbox : base.outbox = rt.outbox) (hactor : asked.sendActorId = (rt.actors ptr).actorId)
    (hasks : asked.body.asks = some asked.msgType.kind) :
    rt.Makes (calls ++ [.add ptr asked.msgType.kind list base.nextMsgId asked.msgType])
      (base.ask sent ptr asked) := by
  refine Makes.of_request ?_ hcalls ⟨asks_ne_idle hasks, rfl, hids, rfl, ?_⟩
  · rw [TimerTable.calls_append, hrun]
    exact TimerTable.calls_cons [] (call_setTimer ⟨_, _⟩ list hidle)
  · rw [← houtbox, ← hactor]
    cases sent
    · exact .inl rfl
    · exact .inr ⟨_, _, _, hasks, rfl⟩

theorem not_armed_invalidate (rt : Runtime σ τ) (ptr : ℕ) (kind : TimerKind) :
    ¬(((rt.invalidate ptr kind).actors ptr).timer kind).Armed := by
  rw [actors_invalidate]
  cases kind <;> exact not_not.2 rfl

theorem makes_askAgain {sent : Bool} (asked : Request σ) (list : TimerList)
    (hactors : base.actors = rt.actors) (houtbox : base.outbox = rt.outbox)
    (hids : base.nextMsgId = rt.nextMsgId ∨ base.nextMsgId = rt.nextMsgId + 1)
    (hchange : ∀ actor, (change actor).timer = actor.timer)
    (hactor : asked.sendActorId = (rt.actors ptr).actorId) (hasks : asked.body.asks = some asked.msgType.kind) :
    rt.Makes [.invalidate ptr asked.msgType.kind,
        .add ptr asked.msgType.kind list base.nextMsgId asked.msgType]
      (((base.invalidate ptr asked.msgType.kind).modifyActor ptr change).ask sent ptr asked) := by
  have hrun : rt.timers.calls [.invalidate ptr asked.msgType.kind] =
      some ((base.invalidate ptr asked.msgType.kind).modifyActor ptr change).timers := by
    rw [← timers_of_actors hactors, TimerTable.calls_cons [] (call_invalidate base ptr _),
      timers_modifyActor _ ptr (hchange _)]
    rfl
  refine makes_ask _ asked list hrun (by simp [IdleCall]) ?_ hids houtbox hactor hasks
  rw [actors_modifyActor, hchange]
  exact not_armed_invalidate base ptr asked.msgType.kind

theorem timerCalls_answer (kind : TimerKind) {message : Message σ} (env : Environment σ) (senderRtid : UInt32)
    (hdelivers : rt.ledger.Delivers message ptr)
    (hrequest : message.body.request = some (kind, ((rt.actors ptr).timer kind).requestMsgId)) :
    rt.timerCalls (.message env senderRtid message) = rt.answerCalls env ptr message.body := by
  have hptr : rt.actoridHtable message.recvActorId = some ptr := hdelivers.2.1
  simp [timerCalls, if_neg hdelivers.1, hptr, flowActorCalls, hrequest]

theorem Prepares.makes {sent : Bool} {asked : Request σ}
    (h : rt.Prepares input base sent ptr asked) : rt.Makes (rt.timerCalls input) (base.ask sent ptr asked) := by
  have hidle : ∀ call ∈ ([] : List TimerCall), IdleCall call := by simp
  cases h with
  | depart _ _ _ hpick hhave hoff =>
    rw [timerCalls, hpick]
    dsimp only
    rw [if_neg hhave]
    refine makes_ask ((rt.departed ptr).enter ptr .migrationSource) (rt.creationRequest ptr) .requests ?_ hidle
      ?_ (.inl rfl) rfl rfl rfl
    · exact congrArg some (timers_enter (rt.departed ptr) ptr _).symm
    · rw [actors_enter]
      exact hoff
  | forward env senderRtid _ _ _ _ hdelivers hbody =>
    rw [timerCalls_answer .migration env senderRtid hdelivers (by rw [hbody]; rfl), hbody]
    exact makes_askAgain (rt.routeRequest ptr _) .requests rfl rfl (.inl rfl) (fun _ ↦ rfl) rfl rfl
  | ship env senderRtid _ _ _ hdelivers hbody hforward hroom =>
    rw [timerCalls_answer .migration env senderRtid hdelivers (by rw [hbody]; rfl), hbody, answerCalls,
      if_neg hforward, if_pos hroom]
    exact makes_askAgain (rt.stateRequest env ptr) .requests rfl rfl (.inl rfl) (fun _ ↦ rfl) rfl rfl
  | stay env senderRtid _ _ _ _ hdelivers hbody hforward hroom =>
    rw [timerCalls_answer .migration env senderRtid hdelivers (by rw [hbody]; rfl), hbody, answerCalls,
      if_neg hforward, hroom, if_neg (by decide)]
    have hactors : { rt with nextMsgId := rt.nextMsgId + 1 }.actors = rt.actors := rfl
    exact makes_askAgain (rt.routeRequest ptr rt.config.runtimeId) .idleFlows hactors rfl (.inr rfl) (fun _ ↦ rfl)
      rfl rfl
  | back env _ kind _ _ htype =>
    have hcalls : rt.timerCalls (.fire env ptr kind) =
        [.invalidate ptr .migration, failureCall ptr rt.nextMsgId] := by
      rcases htype with htype | ⟨htype, hup⟩
      · rw [timerCalls, htype, timeoutCalls]
      · rw [timerCalls, htype, timeoutCalls, if_pos hup]
    rw [hcalls]
    exact makes_askAgain (rt.routeRequest ptr _) .idleFlows rfl rfl (.inl rfl) (fun _ ↦ rfl) rfl rfl
  | recover _ _ _ hpick hoff =>
    rw [timerCalls, hpick]
    have hasked {base : Runtime σ τ} {sent : Bool} (hactors : base.actors = rt.actors)
        (hids : base.nextMsgId = rt.nextMsgId) (houtbox : base.outbox = rt.outbox) : rt.Makes
          [.add ptr .replication .requests rt.nextMsgId .replicaRecoverTimeout]
          (base.ask sent ptr (rt.recoveryRequest ptr)) := by
      have hrun : rt.timers.calls [] = some base.timers := congrArg some (timers_of_actors hactors).symm
      rw [← hids]
      exact makes_ask base (rt.recoveryRequest ptr) .requests hrun hidle (hactors ▸ hoff) (.inl hids) houtbox rfl
        rfl
    exact hasked rfl rfl rfl
  | recoverAgain _ _ _ _ _ htype hup =>
    rw [timerCalls, htype, timeoutCalls, if_pos hup]
    have hrun := TimerTable.calls_cons [] (call_invalidate rt ptr .replication)
    exact makes_ask _ (rt.recoveryRequest ptr) .requests hrun (by simp [IdleCall])
      (not_armed_invalidate rt ptr .replication) (.inl rfl) rfl rfl rfl

theorem timers_abandonMigration (rt : Runtime σ τ) (ptr : ℕ) : (rt.abandonMigration ptr).timers = rt.timers := by
  rw [← timers_enter rt ptr .normalProcessing]
  rfl

theorem timers_activateReplica (rt : Runtime σ τ) (ptr : ℕ) : (rt.activateReplica ptr).timers = rt.timers := by
  have hplain : (rt.modifyActor ptr fun actor ↦
      { actor with replicationState := .noReplica }).timers = rt.timers := timers_modifyActor rt ptr rfl
  rw [← hplain]
  rfl

theorem makes_invalidate (h : rt'.timers = (rt.invalidate ptr kind).timers) (houtbox : rt'.outbox = rt.outbox) :
    rt.Makes [.invalidate ptr kind] rt' := by
  refine .of_asksNothing ?_ (by simp [IdleCall]) (.inl houtbox)
  rw [TimerTable.calls_cons [] (call_invalidate rt ptr kind), h]
  rfl

theorem Abandons.makes (h : rt.Abandons input base ptr) :
    rt.Makes (rt.timerCalls input) (base.abandonMigration ptr) := by
  have htimers := timers_abandonMigration base ptr
  cases h with
  | timeout env _ kind _ htype =>
    have hcalls : rt.timerCalls (.fire env ptr kind) = [.invalidate ptr .migration] := by
      rcases htype with htype | ⟨htype, hdown⟩
      · rw [timerCalls, htype, timeoutCalls]
      · rw [timerCalls, htype, timeoutCalls, hdown, if_neg (by decide)]
    rw [hcalls]
    exact makes_invalidate htimers rfl
  | response env senderRtid _ _ _ hdelivers hbody hdone =>
    rw [timerCalls_answer .migration env senderRtid hdelivers (by rw [hbody]; rfl), hbody, answerCalls,
      if_pos hdone]
    exact makes_invalidate htimers rfl
  | refuse _ _ hpick hhave =>
    rw [timerCalls, hpick]
    dsimp only
    rw [if_pos hhave]
    exact .none htimers (.inl rfl)

theorem timers_deallocate (rt : Runtime σ τ) (ptr : ℕ) : (rt.deallocate ptr).timers = rt.timers :=
  timers_modifyActor { rt with allocator := (rt.allocator.push ptr).2 } ptr rfl

theorem removed_calls (rt : Runtime σ τ) (ptr : ℕ) :
    rt.timers.calls (removeCalls ptr) = some (rt.removed ptr).timers := by
  rw [removeCalls, removed]
  dsimp only
  split
  · rfl
  · rw [TimerTable.calls_cons _ (call_invalidate rt ptr .idle),
      TimerTable.calls_cons _ (call_invalidate _ ptr .migration),
      TimerTable.calls_cons _ (call_invalidate _ ptr .replication)]
    rw [timers_deallocate]
    rfl

theorem idleCall_of_mem_removeCalls {call : TimerCall} (h : call ∈ removeCalls ptr) : IdleCall call := by
  rw [removeCalls] at h
  split at h
  · simp at h
  · simp only [List.mem_cons, List.not_mem_nil, or_false] at h
    rcases h with rfl | rfl | rfl <;> trivial

theorem makes_removed (hrun : rt.timers.calls calls = some base.timers) (hcalls : ∀ call ∈ calls, IdleCall call)
    (houtbox : base.outbox = rt.outbox) : rt.Makes (calls ++ removeCalls ptr) (base.removed ptr) := by
  refine .of_asksNothing ?_ ?_ (.inl ((removed_quiet base ptr).outbox.trans houtbox))
  · rw [TimerTable.calls_append, hrun]
    exact removed_calls base ptr
  · intro call hmem
    exact (List.mem_append.1 hmem).elim (hcalls call) idleCall_of_mem_removeCalls

theorem pktMsg_timers (h : rt.pktMsg env ptr pkt = some rt') : rt'.timers = rt.timers := by
  rcases pktMsg_spec h with hledger | ⟨-, hledger⟩
  · exact timers_of_ledger (congrArg Ledger.cards hledger)
  · funext other kind
    have hcard : (rt'.actors other).card = (rt.ledger.dropReplica ptr).cards other :=
      congrFun (congrArg Ledger.cards hledger) other
    rw [timers, timers, ← card_timer, hcard, Ledger.dropReplica, Ledger.modifyCard, Ledger.setCard]
    simp only [update_apply]
    split
    · next heq =>
      rw [heq, ← card_timer]
      cases kind <;> rfl
    · exact card_timer _ _

theorem repFsPktMsg_timers {states : ℕ → σ} (h : rt.repFsPktMsg ptr states pkt = some rt') :
    rt'.timers = rt.timers :=
  timers_of_ledger (congrArg Ledger.cards (repFsPktMsg_spec h))

theorem AsksNothing.of_outbox (h : base.AsksNothing rt') (houtbox : base.outbox = rt.outbox) :
    rt.AsksNothing rt' := by
  rw [AsksNothing, houtbox] at h
  exact h

theorem post_asksNothing (rt : Runtime σ τ) (sent : Bool) (dest sendActorId recvActorId : UInt32)
    {body : MessageBody σ} (hasks : body.asks = none) :
    rt.AsksNothing (rt.post sent dest sendActorId recvActorId body) := by
  cases sent
  · exact .inl rfl
  · exact .inr ⟨_, _, rfl, hasks⟩

/-- A packet is passed on, kept, or sent to the replica. -/
theorem pktMsg_asksNothing (h : rt.pktMsg env ptr pkt = some rt') : rt.AsksNothing rt' := by
  cases pktMsg_takes h with
  | replicate => exact post_asksNothing _ _ _ _ _ rfl
  | _ => exact .inl rfl

theorem makes_opened {opening : Opening} (hgrants : rt.Grants opening)
    (htimers : rt'.timers = (rt.opened opening).timers) (hsent : (rt.opened opening).AsksNothing rt') :
    rt.Makes rt.initCalls rt' := by
  rw [initCalls, hgrants.1]
  refine .of_asksNothing ?_ (by simp [IdleCall]) (hsent.of_outbox rfl)
  have hopened : (rt.opened opening).timers = (rt.modifyActor opening.ptr fun actor ↦
      actor.setTimer .idle ⟨idleMessageId, .checkIdle⟩).timers := by
    have hcongr : (rt.modifyActor opening.ptr fun _ ↦ rt.openedActor opening).timers =
        (rt.modifyActor opening.ptr fun actor ↦ actor.setTimer .idle ⟨idleMessageId, .checkIdle⟩).timers := by
      refine timers_congr (funext fun kind ↦ ?_)
      cases kind <;> rfl
    exact hcongr
  rw [htimers, hopened]
  exact TimerTable.calls_cons [] (call_setTimer ⟨_, _⟩ .idleFlows hgrants.2)

theorem Opens.makes {opening : Opening} (hgrants : rt.Grants opening)
    (h : rt.Opens input opening rt') : rt.Makes (rt.timerCalls input) rt' := by
  cases h with
  | packet _ _ _ _ _ _ _ _ hnone _ _ hpkt =>
    rw [timerCalls, hnone]
    exact makes_opened hgrants (pktMsg_timers hpkt) (pktMsg_asksNothing hpkt)
  | target _ _ _ _ _ _ _ _ _ _ hrecv hbody =>
    rw [timerCalls, if_pos hrecv, coordinatorCalls, hbody]
    exact makes_opened hgrants rfl (post_asksNothing _ _ _ _ _ rfl)
  | replica _ _ _ _ _ _ _ _ _ _ _ _ _ hrecv hbody hnone _ hrep =>
    rw [timerCalls, if_pos hrecv, coordinatorCalls, hbody]
    dsimp only
    rw [hnone]
    exact makes_opened hgrants (repFsPktMsg_timers hrep) (.inl (quiet_repFsPktMsg hrep).outbox)

theorem Rests.timerCalls (h : rt.Rests input) : rt.timerCalls input = [] := by
  cases h with
  | pong _ _ _ hrecv hbody => rw [Runtime.timerCalls, if_pos hrecv, coordinatorCalls, hbody]
  | refused _ _ _ _ _ _ hrecv hbody hpop =>
    rw [Runtime.timerCalls, if_pos hrecv, coordinatorCalls, hbody]
    dsimp only
    rw [initCalls, hpop]
  | unknown _ _ _ hrecv hnone =>
    rw [Runtime.timerCalls, if_neg hrecv, hnone]
    rfl
  | stale _ _ _ _ _ _ hrecv hptr hrequest hid =>
    simp [Runtime.timerCalls, if_neg hrecv, hptr, flowActorCalls, hrequest, hid]
  | noMigration _ hpick => rw [Runtime.timerCalls, hpick]
  | noRecovery _ hpick => rw [Runtime.timerCalls, hpick]

theorem Tallies.makes (h : rt.Tallies input rt') : rt.Makes (rt.timerCalls input) rt' := by
  cases h with
  | skipMigration _ _ hpick | recoveryDone _ hpick =>
    rw [timerCalls, hpick]
    exact .none rfl (.inl rfl)
  | migrateTo | recover | addStorage | removeStorage =>
    simp only [Runtime.migrateTo, Runtime.recover, Runtime.addStorage, Runtime.removeStorage]
    split <;> exact .none rfl (.inl rfl)
  | _ => exact .none rfl (.inl rfl)

/-- The timers after a step are those that its calls lead to. -/
theorem step_makes (input : Input σ) (h : rt.step input = some rt') : rt.Makes (rt.timerCalls input) rt' := by
  cases step_outcome h with
  | rest _ hrests =>
    rw [hrests.timerCalls]
    exact .none rfl (.inl rfl)
  | tally _ _ htallies => exact htallies.makes
  | abandon _ _ _ habandons => exact habandons.makes
  | ask _ _ _ _ _ hprepares => exact hprepares.makes
  | newFlow _ _ _ hgrants hopens => exact hopens.makes hgrants
  | packet _ _ _ _ hptr hpkt =>
    rw [timerCalls, hptr]
    exact .none (pktMsg_timers hpkt) (pktMsg_asksNothing hpkt)
  | unserved _ _ _ hnone hempty hpkt =>
    rw [timerCalls, hnone]
    change rt.Makes rt.initCalls rt'
    rw [initCalls, hempty]
    have htimers := pktMsg_timers hpkt
    exact .none htimers ((pktMsg_asksNothing hpkt).of_outbox rfl)
  | ping _ _ _ sent hrecv hbody =>
    rw [timerCalls, if_pos hrecv, coordinatorCalls, hbody]
    cases sent
    · exact .none rfl (.inl rfl)
    · exact .none rfl (.inr ⟨_, _, rfl, rfl⟩)
  | route _ _ _ _ _ updated _ _ hrecv hreroutes hupdated =>
    have htimers : updated.2.timers = rt.timers :=
      timers_of_ledger (congrArg Ledger.cards (updateRoute_spec hupdated))
    rw [timerCalls, if_pos hrecv, coordinatorCalls]
    cases hreroutes with
    | migration hbody | recovery hbody =>
      rw [hbody]
      exact .none htimers ((post_asksNothing _ _ _ _ _ rfl).of_outbox (updateRoute_quiet hupdated).outbox)
  | mirror _ _ _ _ _ _ _ _ _ _ hrecv hbody hptr hrep =>
    rw [timerCalls, if_pos hrecv, coordinatorCalls, hbody]
    dsimp only
    rw [hptr]
    exact .none (repFsPktMsg_timers hrep) (.inl (quiet_repFsPktMsg hrep).outbox)
  | bindDeadend _ _ _ _ _ _ _ _ _ hrecv hbody hnone hempty hrep =>
    rw [timerCalls, if_pos hrecv, coordinatorCalls, hbody]
    dsimp only
    rw [hnone, initCalls, hempty]
    have htimers := repFsPktMsg_timers hrep
    exact .none htimers (.inl (quiet_repFsPktMsg hrep).outbox)
  | arrive env senderRtid message ptr states sent _ hdelivers hbody hreplay =>
    have hptr : rt.actoridHtable message.recvActorId = some ptr := hdelivers.2.1
    have hcalls : rt.timerCalls (.message env senderRtid message) = [] := by
      simp [timerCalls, if_neg hdelivers.1, hptr, flowActorCalls, hbody, MessageBody.request]
    have hentered : (rt.arriving sent ptr senderRtid message states).timers = rt.timers :=
      timers_enter rt ptr .normalProcessing
    have hreplayed := timers_of_ledger (congrArg Ledger.cards (replayBuffer_spec _ hreplay))
    have hposted : rt.AsksNothing (rt.arriving sent ptr senderRtid message states) :=
      post_asksNothing rt sent senderRtid _ _ rfl
    rw [hcalls]
    refine .none (hreplayed.trans hentered) ?_
    rw [AsksNothing, (quiet_replayBuffer _ hreplay).outbox]
    exact hposted
  | complete env senderRtid _ ptr hdelivers hbody =>
    rw [timerCalls_answer .migration env senderRtid hdelivers (by rw [hbody]; rfl), hbody, answerCalls]
    have hentered : ((rt.invalidate ptr .migration).enter ptr .normalProcessing).timers =
      (rt.invalidate ptr .migration).timers := timers_modifyActor _ ptr rfl
    have hsettled : rt.timers.calls [.invalidate ptr .migration, .invalidate ptr .idle] =
        some (rt.settled ptr).timers := by
      rw [TimerTable.calls_cons _ (call_invalidate rt ptr .migration), ← hentered,
        TimerTable.calls_cons _ (call_invalidate _ ptr .idle)]
      rfl
    exact makes_removed hsettled (by simp [IdleCall]) rfl
  | recovered env senderRtid _ ptr _ hdelivers hbody =>
    rw [timerCalls_answer .replication env senderRtid hdelivers (by rw [hbody]; rfl), hbody, answerCalls]
    exact makes_invalidate (timers_activateReplica (rt.invalidate ptr .replication) ptr) rfl
  | notRecovered _ ptr _ _ _ htype hpeer hdown =>
    rw [timerCalls, htype, timeoutCalls, hpeer, if_neg (by simpa using hdown)]
    exact makes_invalidate (timers_activateReplica (rt.invalidate ptr .replication) ptr) rfl
  | idleAgain _ ptr _ _ htype hstays =>
    rw [timerCalls, htype, timeoutCalls, if_neg (by exact hstays)]
    have hagain : ((rt.invalidate ptr .idle).modifyActor ptr fun actor ↦ { actor with
        sampleCounter := actor.pktCounter
        idleTimer := ⟨idleMessageId, .checkIdle⟩ }).timers = ((rt.invalidate ptr .idle).modifyActor ptr
          fun actor ↦ actor.setTimer .idle ⟨idleMessageId, .checkIdle⟩).timers := by
      refine timers_congr (funext fun kind ↦ ?_)
      cases kind <;> rfl
    refine .of_asksNothing ?_ (by simp [IdleCall]) (.inl rfl)
    rw [TimerTable.calls_cons _ (call_invalidate rt ptr .idle), hagain]
    exact TimerTable.calls_cons [] (call_setTimer ⟨_, _⟩ .idleFlows (not_armed_invalidate rt ptr .idle))
  | leave _ ptr _ _ htype hleaves =>
    rw [timerCalls, htype, timeoutCalls, if_pos (by exact hleaves)]
    have hleft : (rt.left ptr).timers = (rt.invalidate ptr .idle).timers :=
      timers_of_ledger (by rw [ledger_left, ledger_invalidate]; rfl)
    have houtbox : (rt.left ptr).outbox = rt.outbox := by
      rw [left, drained]
      split <;> rfl
    exact makes_removed (makes_invalidate hleft houtbox).run (by simp [IdleCall]) houtbox

end Runtime

end NfvActor.Actor
