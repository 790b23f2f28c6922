import Mathlib.Tactic
import NfvActor.Actor.Refinement

/-!
# What a step sends

A step appends at most one message to its outbox. Requests of the migration protocol carry a message id that has
just been allocated, responses the id of the request that the step handles. The number of ids that a step
allocates is known before it.
-/

namespace NfvActor.Actor

open NfvActor.Foundation
open NfvActor.Reliable (Packet)
open Option (bind_eq_some_iff map_eq_some_iff)

/-- The three rounds of a migration. -/
inductive Round
  | createTarget
  | changeRoute
  | shipState
deriving DecidableEq, Repr

namespace MessageBody

variable {σ : Type}

/-- The round that a message opens. -/
def opens : MessageBody σ → Option Round
  | createMigrationTargetActor _ _ _ => some .createTarget
  | changeVswitchRoute _ _ => some .changeRoute
  | migrateFlowState _ => some .shipState
  | _ => none

/-- The round that a message closes, and the id of the message that opened it. -/
def closes : MessageBody σ → Option (Round × UInt32)
  | startMigrationResponse requestMsgId _ => some (.createTarget, requestMsgId)
  | changeVswitchRouteResponse requestMsgId _ => some (.changeRoute, requestMsgId)
  | migrateFlowStateResponse requestMsgId => some (.shipState, requestMsgId)
  | _ => none

variable {body : MessageBody σ}

theorem closes_of_opens {round : Round} (h : body.opens = some round) : body.closes = none := by
  cases body <;> simp_all [opens, closes]

theorem of_opens_shipState (h : body.opens = some .shipState) : ∃ states, body = .migrateFlowState states := by
  cases body <;> simp_all [opens]

theorem closes_of_request {requestMsgId : UInt32} (h : body.request = some (.migration, requestMsgId)) :
    ∃ round, body.closes = some (round, requestMsgId) := by
  cases body <;> simp_all [request, closes]

end MessageBody

/-- The ids that a counter has given out since it passed zero are below this bound. -/
def idBound (next : UInt32) : ℕ := (next - 1).toNat + 1

theorem idBound_succ (id : UInt32) : idBound (id + 1) = id.toNat + 1 := by
  rw [idBound, UInt32.add_sub_cancel]

theorem idBound_add {next : UInt32} {taken : ℕ} (hroom : idBound next + taken ≤ 2 ^ 32) :
    idBound (next + UInt32.ofNat taken) = idBound next + taken := by
  have hlt := next.toNat_lt
  simp only [idBound, UInt32.toNat_sub, UInt32.toNat_add, UInt32.toNat_ofNat', UInt32.toNat_one] at hroom ⊢
  omega

/-- An id that is given out without passing zero is not below the bound. -/
theorem idBound_le_toNat {next id : UInt32} (hid : id = next ∨ id = next + 1)
    (hle : idBound next ≤ id.toNat + 1) : idBound next ≤ id.toNat := by
  have hlt := next.toNat_lt
  rcases hid with rfl | rfl <;>
  · simp only [idBound, UInt32.toNat_sub, UInt32.toNat_add, UInt32.toNat_one] at hle ⊢
    omega

namespace Runtime

variable {σ τ : Type} {input : Input σ}

/-- A packet takes an id from its actor for the replication message. -/
def packetIds (rt : Runtime σ τ) (env : Environment σ) (ptr : ℕ) : ℕ :=
  if (rt.actors ptr).currentState.processes = true ∧ (rt.actors ptr).replicationState = .haveReplica ∧
    env.replicaConnection = some true then 1 else 0

/-- The ids for the answers of the coordinator. -/
def coordinatorIds (rt : Runtime σ τ) : MessageBody σ → ℕ
  | .createMigrationTargetActor _ _ _ => if rt.allocator.pop.isSome then 1 else 0
  | .changeVswitchRoute _ _ | .replicaRecover _ _ => 1
  | _ => 0

/-- The ids for the messages of a flow actor that handles a message. -/
def flowActorIds (rt : Runtime σ τ) (env : Environment σ) (ptr : ℕ) : MessageBody σ → ℕ
  | .startMigrationResponse requestMsgId _ =>
    if requestMsgId = (rt.actors ptr).migrationTimer.requestMsgId then 1 else 0
  | .changeVswitchRouteResponse requestMsgId changeRouteSucceed =>
    if requestMsgId ≠ (rt.actors ptr).migrationTimer.requestMsgId then 0
    else if (rt.actors ptr).currentState = .failureProcessing ∨ changeRouteSucceed = 1 then 0
    else if (env.reliables rt.migration.targetRtId).any (fun peer ↦ peer.connectionUp && env.sendOk) then 1
    else 2
  | .migrateFlowState _ => 1
  | _ => 0

/-- The ids for the requests of a flow actor whose timer has expired. -/
def timeoutIds (rt : Runtime σ τ) (env : Environment σ) (ptr : ℕ) : TimerMessage → ℕ
  | .migrateFlowStateTimeout => 1
  | .changeVswitchRouteTimeout | .replicaRecoverTimeout =>
    if (env.reliables (rt.actors ptr).inputHeader.destRtid).any PeerView.connectionUp then 1 else 0
  | _ => 0

/-- The number of ids that `allocate_msg_id` gives out in a step. -/
def msgIdsTaken (rt : Runtime σ τ) : Input σ → ℕ
  | .packet env pkt => (rt.receiver env pkt).elim 0 fun received ↦ received.2.packetIds env received.1
  | .message env _ message =>
    if message.recvActorId = coordinatorActorId then rt.coordinatorIds message.body
    else (rt.actoridHtable message.recvActorId).elim 0 fun ptr ↦ rt.flowActorIds env ptr message.body
  | .fire env ptr kind => rt.timeoutIds env ptr ((rt.actors ptr).timer kind).msgType
  | .migrationIteration _ =>
    rt.migrationPick.elim 0 fun ptr ↦ if (rt.actors ptr).replicationState = .haveReplica then 0 else 1
  | .recoveryIteration _ => rt.recoveryPick.elim 0 fun _ ↦ 1
  | _ => 0

/-- The counter of message ids does not pass zero in the step. -/
def messageIdsHold (rt : Runtime σ τ) (input : Input σ) : Bool :=
  decide (idBound rt.nextMsgId + rt.msgIdsTaken input ≤ 2 ^ 32)

/-- Why a step sends a message. -/
inductive Cause (rt : Runtime σ τ) (input : Input σ) (rt' : Runtime σ τ) (dest : UInt32)
    (message : Message σ) : Prop
  | plain : message.body.opens = none → message.body.closes = none → message.body.request = none →
      Cause rt input rt' dest message
  | reply (env : Environment σ) (request : Message σ) (round : Round) :
      input = .message env dest request → request.body.opens = some round →
      message.body.opens = none → message.body.closes = some (round, request.msgId) →
      message.recvActorId = request.sendActorId → Cause rt input rt' dest message
  | recovered (env : Environment σ) (request : Message σ) (key : FlowKey) (newOutputRtId : UInt32)
      (outcome : UInt32) : input = .message env dest request →
      request.body = .replicaRecover key newOutputRtId →
      message.body = .replicaRecoverResponse request.msgId outcome →
      message.recvActorId = request.sendActorId → Cause rt input rt' dest message
  | request (round : Round) : message.body.opens = some round → round ≠ .shipState →
      message.msgId = rt.nextMsgId ∨ message.msgId = rt.nextMsgId + 1 →
      rt'.nextMsgId = message.msgId + 1 → Cause rt input rt' dest message
  | ship (id : UInt32) (ptr : ℕ) : message.body.opens = some .shipState →
      message.msgId = rt.nextMsgId → rt'.nextMsgId = message.msgId + 1 →
      rt'.actoridHtable id = some ptr → (rt'.actors ptr).actorId = message.sendActorId →
      (rt'.actors ptr).currentState = .afterRouteChange →
      (rt'.actors ptr).migrationTimer = ⟨message.msgId, .migrateFlowStateTimeout⟩ →
      Cause rt input rt' dest message

/-- A step sends at most one message. -/
structure Traffic (rt : Runtime σ τ) (input : Input σ) (rt' : Runtime σ τ) : Prop where
  sent : rt'.outbox = rt.outbox ∨
    ∃ dest message, rt'.outbox = rt.outbox ++ [(dest, message)] ∧ Cause rt input rt' dest message

/-- Nothing is sent and no message id allocated. -/
structure Quiet (rt rt' : Runtime σ τ) : Prop where
  nextMsgId : rt'.nextMsgId = rt.nextMsgId
  outbox : rt'.outbox = rt.outbox

variable {rt rt' base : Runtime σ τ} {env env' : Environment σ} {sendOk : Bool}
  {dest sendActorId recvActorId requestMsgId senderRtid newOutputRtId : UInt32} {body : MessageBody σ}
  {sent : Bool × Runtime σ τ} {ptr : ℕ} {kind : TimerKind} {msgType : TimerMessage} {pkt : Packet}
  {key : FlowKey} {inputHeader outputHeader : EtherHeader} {states : ℕ → σ} {round : Round}
  {request : Message σ}

theorem Quiet.traffic (h : rt.Quiet rt') (input : Input σ) : rt.Traffic input rt' :=
  ⟨.inl h.outbox⟩

theorem Quiet.trans {rt'' : Runtime σ τ} (h : rt.Quiet rt') (h' : rt'.Quiet rt'') : rt.Quiet rt'' :=
  ⟨h'.nextMsgId.trans h.nextMsgId, h'.outbox.trans h.outbox⟩

theorem quiet_repFsPktMsg (h : rt.repFsPktMsg ptr states pkt = some rt') : rt.Quiet rt' := by
  obtain ⟨-, rfl⟩ | ⟨-, rfl⟩ := repFsPktMsg_cases h <;> exact ⟨rfl, rfl⟩

theorem quiet_replayBuffer (buffer : List (ℕ × Packet)) (h : rt.replayBuffer ptr buffer = some rt') :
    rt.Quiet rt' := by
  induction buffer generalizing rt with
  | nil =>
    cases h
    exact ⟨rfl, rfl⟩
  | cons _ _ ih =>
    obtain ⟨mid, hmid, hrest⟩ := bind_eq_some_iff.1 h
    obtain ⟨_, _, -, rfl⟩ := replayPacket_eq hmid
    have hquiet := ih hrest
    exact ⟨hquiet.nextMsgId, hquiet.outbox⟩

theorem updateRoute_quiet {updated : UInt32 × Runtime σ τ}
    (h : rt.updateRoute env key newOutputRtId = some updated) : rt.Quiet updated.2 := by
  unfold updateRoute at h
  split at h
  · cases h
    exact ⟨rfl, rfl⟩
  · obtain ⟨peer, -, rfl⟩ := map_eq_some_iff.1 h
    exact ⟨rfl, rfl⟩

/-- A message is posted; what follows is quiet. -/
theorem traffic_of_post {sent : Bool} (houtbox : base.outbox = rt.outbox)
    (hafter : (base.post sent dest sendActorId recvActorId body).Quiet rt')
    (hcause : rt.Cause input rt' dest ⟨sendActorId, recvActorId, base.nextMsgId, body⟩) :
    rt.Traffic input rt' := by
  constructor
  rw [hafter.outbox, ← houtbox]
  cases sent
  · exact .inl rfl
  · exact .inr ⟨_, _, rfl, hcause⟩

theorem pktMsg_traffic (input : Input σ) (h : base.pktMsg env ptr pkt = some rt') (hquiet : rt.Quiet base) :
    rt.Traffic input rt' := by
  cases pktMsg_takes h with
  | replicate dest =>
    exact traffic_of_post hquiet.outbox ⟨rfl, rfl⟩ (.plain rfl rfl rfl)
  | _ => exact ⟨.inl hquiet.outbox⟩

theorem Prepares.traffic {sent : Bool} {asked : Request σ}
    (h : rt.Prepares input base sent ptr asked) : rt.Traffic input (base.ask sent ptr asked) := by
  have hasked (houtbox : base.outbox = rt.outbox) (hcause : rt.Cause input (base.ask sent ptr asked) asked.dest
        ⟨asked.sendActorId, asked.recvActorId, base.nextMsgId, asked.body⟩) :
      rt.Traffic input (base.ask sent ptr asked) := traffic_of_post houtbox ⟨rfl, rfl⟩ hcause
  cases h with
  | depart => exact hasked rfl (.request .createTarget rfl (by decide) (.inl rfl) rfl)
  | forward | back => exact hasked rfl (.request .changeRoute rfl (by decide) (.inl rfl) rfl)
  | ship _ _ message _ _ hdelivers =>
    refine hasked rfl (.ship message.recvActorId ptr rfl rfl rfl hdelivers.2.1 ?_ ?_ ?_) <;>
    · rw [actors_ask, actors_enter, actors_invalidate]
      rfl
  | stay => exact hasked rfl (.request .changeRoute rfl (by decide) (.inr rfl) rfl)
  | recover | recoverAgain => exact hasked rfl (.plain rfl rfl rfl)

theorem Tallies.quiet (h : rt.Tallies input rt') : rt.Quiet rt' := by
  cases h with
  | migrateTo | recover | addStorage | removeStorage =>
    simp only [Runtime.migrateTo, Runtime.recover, Runtime.addStorage, Runtime.removeStorage]
    split <;> exact ⟨rfl, rfl⟩
  | _ => exact ⟨rfl, rfl⟩

theorem removed_quiet (rt : Runtime σ τ) (ptr : ℕ) : rt.Quiet (rt.removed ptr) := by
  unfold removed
  dsimp only
  split <;> exact ⟨rfl, rfl⟩

theorem left_quiet (rt : Runtime σ τ) (ptr : ℕ) : rt.Quiet ((rt.left ptr).removed ptr) := by
  have hleft : rt.Quiet (rt.left ptr) := by
    rw [left, drained]
    split <;> exact ⟨rfl, rfl⟩
  exact hleft.trans (removed_quiet _ ptr)

theorem step_traffic (input : Input σ) (h : rt.step input = some rt') : rt.Traffic input rt' := by
  cases step_outcome h with
  | rest => exact ⟨.inl rfl⟩
  | tally _ _ htallies => exact htallies.quiet.traffic input
  | abandon _ _ _ habandons => cases habandons <;> exact ⟨.inl rfl⟩
  | ask _ _ _ _ _ hprepares => exact hprepares.traffic
  | newFlow _ _ _ _ hopens =>
    cases hopens with
    | packet _ _ _ _ _ _ _ _ _ _ _ hpkt => exact pktMsg_traffic _ hpkt ⟨rfl, rfl⟩
    | target env _ message _ _ _ _ _ _ _ _ hbody =>
      exact traffic_of_post rfl ⟨rfl, rfl⟩
        (.reply env message .createTarget rfl (by rw [hbody]; rfl) rfl rfl rfl)
    | replica _ _ _ _ _ _ _ _ _ _ _ _ _ _ _ _ _ hrep =>
      have hquiet := quiet_repFsPktMsg hrep
      exact ⟨.inl hquiet.outbox⟩
  | packet _ _ _ _ _ hpkt | unserved _ _ _ _ _ hpkt => exact pktMsg_traffic _ hpkt ⟨rfl, rfl⟩
  | ping _ _ _ sent =>
    cases sent
    · exact ⟨.inl rfl⟩
    · exact ⟨.inr ⟨_, _, rfl, .plain rfl rfl rfl⟩⟩
  | route env _ message key newOutputRtId updated _ _ _ hreroutes hupdated =>
    have hquiet := updateRoute_quiet hupdated
    refine traffic_of_post hquiet.outbox ⟨rfl, rfl⟩ ?_
    cases hreroutes with
    | migration hbody => exact .reply env message .changeRoute rfl (by rw [hbody]; rfl) rfl rfl rfl
    | recovery hbody => exact .recovered env message key newOutputRtId _ rfl hbody rfl rfl
  | mirror _ _ _ _ _ _ _ _ _ _ _ _ _ hrep => exact (quiet_repFsPktMsg hrep).traffic _
  | bindDeadend _ _ _ _ _ _ _ _ _ _ _ _ _ hrep =>
    have hquiet := quiet_repFsPktMsg hrep
    exact ⟨.inl hquiet.outbox⟩
  | arrive env senderRtid message ptr states sent _ _ hbody hreplay =>
    have hquiet := quiet_replayBuffer _ hreplay
    exact traffic_of_post rfl ⟨hquiet.nextMsgId, hquiet.outbox⟩
      (.reply env message .shipState rfl (by rw [hbody]; rfl) rfl rfl rfl)
  | complete _ _ _ ptr =>
    have hquiet := removed_quiet (rt.settled ptr) ptr
    exact ⟨.inl hquiet.outbox⟩
  | recovered => exact ⟨.inl rfl⟩
  | notRecovered => exact ⟨.inl rfl⟩
  | idleAgain => exact ⟨.inl rfl⟩
  | leave _ ptr => exact (left_quiet rt ptr).traffic _

theorem nextMsgId_pktMsg (h : rt.pktMsg env ptr pkt = some rt') :
    rt'.nextMsgId = rt.nextMsgId + UInt32.ofNat (rt.packetIds env ptr) := by
  have hnone (hidle : rt.packetIds env ptr = 0) :
      rt.nextMsgId = rt.nextMsgId + UInt32.ofNat (rt.packetIds env ptr) := by
    rw [hidle]
    exact (UInt32.add_zero _).symm
  cases pktMsg_takes h with
  | full hstate | keep _ _ hstate | late hstate => exact hnone (by simp [packetIds, hstate, FlowState.processes])
  | emit _ _ hreplica => exact hnone (by simp [packetIds, hreplica])
  | disconnect _ _ _ hconnection => exact hnone (by simp [packetIds, hconnection])
  | replicate _ hprocesses hreplica hconnection =>
    rw [packetIds, if_pos ⟨hprocesses, hreplica, hconnection⟩]
    rfl

theorem nextMsgId_schedule (h : rt.schedule env pkt = some rt') :
    rt'.nextMsgId = rt.nextMsgId + UInt32.ofNat (rt.msgIdsTaken (.packet env pkt)) := by
  rw [schedule_eq] at h
  obtain ⟨⟨ptr, served⟩, hreceiver, hpkt⟩ := bind_eq_some_iff.1 h
  have hserved : served.nextMsgId = rt.nextMsgId := by
    rcases receiver_spec hreceiver with ⟨-, rfl⟩ | ⟨-, ⟨-, -, rfl⟩ | ⟨_, _, _, _, -, -, -, rfl, -⟩⟩ <;> rfl
  rw [nextMsgId_pktMsg hpkt, hserved, msgIdsTaken, hreceiver]
  rfl

/-- The counter goes up by the number of ids that the step takes. -/
def Counts (rt : Runtime σ τ) (input : Input σ) (rt' : Runtime σ τ) : Prop :=
  rt'.nextMsgId = rt.nextMsgId + UInt32.ofNat (rt.msgIdsTaken input)

theorem Quiet.counts (h : rt.Quiet rt') (hnone : rt.msgIdsTaken input = 0) : rt.Counts input rt' := by
  rw [Counts, hnone, h.nextMsgId]
  exact (UInt32.add_zero _).symm

theorem counts_of_one (hone : rt.msgIdsTaken input = 1) (hnext : rt'.nextMsgId = rt.nextMsgId + 1) :
    rt.Counts input rt' := by
  rw [Counts, hone]
  exact hnext

theorem msgIdsTaken_coordinator {message : Message σ} (hrecv : message.recvActorId = coordinatorActorId)
    (hbody : message.body = body) :
    rt.msgIdsTaken (.message env senderRtid message) = rt.coordinatorIds body := by
  rw [msgIdsTaken, if_pos hrecv, hbody]

theorem msgIdsTaken_flowActor {message : Message σ} (hrecv : message.recvActorId ≠ coordinatorActorId)
    (hentry : rt.actoridHtable message.recvActorId = some ptr) (hbody : message.body = body) :
    rt.msgIdsTaken (.message env senderRtid message) = rt.flowActorIds env ptr body := by
  rw [msgIdsTaken, if_neg hrecv, hentry, Option.elim_some, hbody]

theorem Rests.msgIdsTaken (h : rt.Rests input) : rt.msgIdsTaken input = 0 := by
  cases h with
  | pong _ _ _ hrecv hbody => exact msgIdsTaken_coordinator hrecv hbody
  | refused _ _ _ _ _ _ hrecv hbody hpop =>
    rw [msgIdsTaken_coordinator hrecv hbody, coordinatorIds, hpop]
    rfl
  | unknown _ _ _ hrecv hentry => simp [Runtime.msgIdsTaken, hrecv, hentry]
  | stale _ _ message ptr kind id hrecv hentry hrequest hid =>
    rw [msgIdsTaken_flowActor hrecv hentry rfl]
    cases hbody : message.body <;> rw [hbody] at hrequest <;> cases hrequest <;>
      simp_all [flowActorIds, FlowActor.timer]
  | noMigration _ hpick | noRecovery _ hpick => simp [Runtime.msgIdsTaken, hpick]

theorem Tallies.msgIdsTaken (h : rt.Tallies input rt') : rt.msgIdsTaken input = 0 := by
  cases h with
  | skipMigration _ _ hpick | recoveryDone _ hpick => simp [Runtime.msgIdsTaken, hpick]
  | _ => rfl

theorem Abandons.counts (h : rt.Abandons input base ptr) : rt.Counts input (base.abandonMigration ptr) := by
  cases h with
  | timeout _ _ _ _ htype =>
    refine Quiet.counts ⟨rfl, rfl⟩ ?_
    rcases htype with htype | ⟨htype, hdown⟩
    · simp [msgIdsTaken, htype, timeoutIds]
    · simp [msgIdsTaken, htype, timeoutIds, hdown]
  | response _ _ _ _ _ hdelivers hbody hback =>
    refine Quiet.counts ⟨rfl, rfl⟩ ?_
    rw [msgIdsTaken_flowActor hdelivers.1 hdelivers.2.1 hbody]
    simp [flowActorIds, hback]
  | refuse _ _ hpick hreplica => exact Quiet.counts ⟨rfl, rfl⟩ (by simp [msgIdsTaken, hpick, hreplica])

theorem Prepares.counts {sent : Bool} {asked : Request σ} (h : rt.Prepares input base sent ptr asked) :
    rt.Counts input (base.ask sent ptr asked) := by
  cases h with
  | depart _ _ _ hpick hreplica => exact counts_of_one (by simp [msgIdsTaken, hpick, hreplica]) rfl
  | forward _ _ _ _ _ _ hdelivers hbody =>
    refine counts_of_one ?_ rfl
    rw [msgIdsTaken_flowActor hdelivers.1 hdelivers.2.1 hbody]
    simp [flowActorIds]
  | ship _ _ _ _ _ hdelivers hbody hforward hsent =>
    refine counts_of_one ?_ rfl
    rw [msgIdsTaken_flowActor hdelivers.1 hdelivers.2.1 hbody]
    simp only [flowActorIds, ne_eq, not_true_eq_false, if_false, if_neg hforward, hsent, if_true]
  | stay _ _ _ _ _ _ hdelivers hbody hforward hfails =>
    rw [Counts, msgIdsTaken_flowActor hdelivers.1 hdelivers.2.1 hbody]
    simp only [flowActorIds, ne_eq, not_true_eq_false, if_false, if_neg hforward, hfails, Bool.false_eq_true]
    exact UInt32.add_assoc _ 1 1
  | back _ _ _ _ _ htype =>
    refine counts_of_one ?_ rfl
    rcases htype with htype | ⟨htype, hup⟩
    · simp [msgIdsTaken, htype, timeoutIds]
    · simp [msgIdsTaken, htype, timeoutIds, hup]
  | recover _ _ _ hpick => exact counts_of_one (by simp [msgIdsTaken, hpick]) rfl
  | recoverAgain _ _ _ _ _ htype hup => exact counts_of_one (by simp [msgIdsTaken, htype, timeoutIds, hup]) rfl

/-- A step takes as many ids as it is expected to. -/
theorem step_counts (h : rt.step input = some rt') : rt.Counts input rt' := by
  cases step_outcome h with
  | rest _ hrests => exact Quiet.counts ⟨rfl, rfl⟩ hrests.msgIdsTaken
  | tally _ _ htallies => exact htallies.quiet.counts htallies.msgIdsTaken
  | abandon _ _ _ habandons => exact habandons.counts
  | ask _ _ _ _ _ hprepares => exact hprepares.counts
  | newFlow _ _ _ hgrants hopens =>
    cases hopens with
    | packet => exact nextMsgId_schedule h
    | target _ _ _ _ _ _ _ _ _ _ hrecv hbody =>
      refine counts_of_one ?_ rfl
      rw [msgIdsTaken_coordinator hrecv hbody, coordinatorIds, hgrants.1]
      rfl
    | replica _ _ _ _ _ _ _ _ _ _ _ _ _ hrecv hbody _ _ hrep =>
      have hquiet := quiet_repFsPktMsg hrep
      exact Quiet.counts ⟨hquiet.nextMsgId, hquiet.outbox⟩ (msgIdsTaken_coordinator hrecv hbody)
  | packet => exact nextMsgId_schedule h
  | unserved => exact nextMsgId_schedule h
  | ping _ _ _ _ hrecv hbody =>
    rw [Counts, msgIdsTaken_coordinator hrecv hbody]
    exact (UInt32.add_zero _).symm
  | route _ _ _ _ _ _ _ _ hrecv hreroutes hupdated =>
    refine counts_of_one ?_ (congrArg (· + 1) (updateRoute_quiet hupdated).nextMsgId)
    cases hreroutes with
    | migration hbody | recovery hbody => exact msgIdsTaken_coordinator hrecv hbody
  | mirror _ _ _ _ _ _ _ _ _ _ hrecv hbody _ hrep =>
    exact (quiet_repFsPktMsg hrep).counts (msgIdsTaken_coordinator hrecv hbody)
  | bindDeadend _ _ _ _ _ _ _ _ _ hrecv hbody _ _ hrep =>
    have hquiet := quiet_repFsPktMsg hrep
    exact Quiet.counts ⟨hquiet.nextMsgId, hquiet.outbox⟩ (msgIdsTaken_coordinator hrecv hbody)
  | arrive _ _ _ _ _ _ _ hdelivers hbody hreplay =>
    exact counts_of_one (msgIdsTaken_flowActor hdelivers.1 hdelivers.2.1 hbody)
      (quiet_replayBuffer _ hreplay).nextMsgId
  | complete _ _ _ ptr hdelivers hbody =>
    have hquiet := removed_quiet (rt.settled ptr) ptr
    exact Quiet.counts ⟨hquiet.nextMsgId, hquiet.outbox⟩
      (msgIdsTaken_flowActor hdelivers.1 hdelivers.2.1 hbody)
  | recovered _ _ _ _ _ hdelivers hbody =>
    exact Quiet.counts ⟨rfl, rfl⟩ (msgIdsTaken_flowActor hdelivers.1 hdelivers.2.1 hbody)
  | notRecovered _ _ _ _ _ htype hpeer hdown =>
    exact Quiet.counts ⟨rfl, rfl⟩ (by simp [msgIdsTaken, htype, timeoutIds, hpeer, hdown])
  | idleAgain _ _ _ _ htype => exact Quiet.counts ⟨rfl, rfl⟩ (by simp [msgIdsTaken, htype, timeoutIds])
  | leave _ ptr _ _ htype =>
    exact (left_quiet rt ptr).counts (by simp [msgIdsTaken, htype, timeoutIds])

/-- The ids that a step gives out raise the bound. -/
theorem idBound_step (hids : rt.messageIdsHold input = true) (h : rt.step input = some rt') :
    idBound rt'.nextMsgId = idBound rt.nextMsgId + rt.msgIdsTaken input := by
  rw [show rt'.nextMsgId = _ from step_counts h, idBound_add (of_decide_eq_true hids)]

theorem idBound_mono (hids : rt.messageIdsHold input = true) (h : rt.step input = some rt') :
    idBound rt.nextMsgId ≤ idBound rt'.nextMsgId := by
  rw [idBound_step hids h]
  exact Nat.le_add_right ..

/-! ## Numbered requests -/

/-- A message that opens a round carries an id allocated in the step. -/
theorem Cause.fresh {message : Message σ} (h : rt.Cause input rt' dest message)
    (hopens : message.body.opens = some round) (hle : idBound rt.nextMsgId ≤ idBound rt'.nextMsgId) :
    idBound rt.nextMsgId ≤ message.msgId.toNat ∧ message.msgId.toNat < idBound rt'.nextMsgId := by
  have hgiven (hid : message.msgId = rt.nextMsgId ∨ message.msgId = rt.nextMsgId + 1)
      (hnext : rt'.nextMsgId = message.msgId + 1) :
      idBound rt.nextMsgId ≤ message.msgId.toNat ∧ message.msgId.toNat < idBound rt'.nextMsgId := by
    rw [hnext, idBound_succ] at hle ⊢
    exact ⟨idBound_le_toNat hid hle, Nat.lt_succ_self _⟩
  cases h with
  | plain hnone => cases hnone.symm.trans hopens
  | reply _ _ _ _ _ hnone => cases hnone.symm.trans hopens
  | recovered _ _ _ _ _ _ _ hbody =>
    rw [hbody] at hopens
    exact absurd hopens (by simp [MessageBody.opens])
  | request _ _ _ hid hnext => exact hgiven hid hnext
  | ship _ _ _ hid hnext => exact hgiven (.inl hid) hnext

namespace Traffic

variable {rt rt' : Runtime σ τ} {input : Input σ}

theorem sent_cases (h : rt.Traffic input rt') {dest : UInt32} {message : Message σ}
    (hmem : (dest, message) ∈ rt'.outbox) :
    (dest, message) ∈ rt.outbox ∨
      rt'.outbox = rt.outbox ++ [(dest, message)] ∧ rt.Cause input rt' dest message := by
  rcases h.sent with hsame | ⟨dest', message', hsent, hcause⟩
  · exact .inl (hsame ▸ hmem)
  · rw [hsent, List.mem_append, List.mem_singleton, Prod.mk.injEq] at hmem
    rcases hmem with hold | ⟨rfl, rfl⟩
    · exact .inl hold
    · exact .inr ⟨hsent, hcause⟩

end Traffic

/-- Messages that open different rounds carry different ids, below the next one. -/
structure Numbered (rt : Runtime σ τ) : Prop where
  bound : ∀ dest message round, (dest, message) ∈ rt.outbox → message.body.opens = some round →
    message.msgId.toNat < idBound rt.nextMsgId
  round : ∀ dest message round dest' message' round', (dest, message) ∈ rt.outbox →
    message.body.opens = some round → (dest', message') ∈ rt.outbox →
      message'.body.opens = some round' → message.msgId = message'.msgId → round = round'

theorem Numbered.step (h : rt.Numbered) (htraffic : rt.Traffic input rt')
    (hle : idBound rt.nextMsgId ≤ idBound rt'.nextMsgId) : rt'.Numbered := by
  have hclash : ∀ dest message round dest' message' round', (dest, message) ∈ rt.outbox →
      message.body.opens = some round → rt.Cause input rt' dest' message' →
        message'.body.opens = some round' → message.msgId ≠ message'.msgId := by
    intro dest message round dest' message' round' hmem hopens hcause hopens' heq
    have hlt := h.bound dest message round hmem hopens
    rw [heq] at hlt
    exact absurd (hcause.fresh hopens' hle).1 (not_le.2 hlt)
  constructor
  · intro dest message round hmem hopens
    rcases htraffic.sent_cases hmem with hold | ⟨-, hcause⟩
    · exact (h.bound dest message round hold hopens).trans_le hle
    · exact (hcause.fresh hopens hle).2
  · intro dest message round dest' message' round' hmem hopens hmem' hopens' heq
    rcases htraffic.sent_cases hmem with hold | ⟨hsent, hcause⟩
    · rcases htraffic.sent_cases hmem' with hold' | ⟨-, hcause'⟩
      · exact h.round dest message round dest' message' round' hold hopens hold' hopens' heq
      · exact absurd heq (hclash dest message round dest' message' round' hold hopens hcause' hopens')
    · rw [hsent, List.mem_append, List.mem_singleton, Prod.mk.injEq] at hmem'
      rcases hmem' with hold' | ⟨-, rfl⟩
      · exact absurd heq.symm (hclash dest' message' round' dest message round hold' hopens' hcause hopens)
      · rw [hopens] at hopens'
        exact Option.some.inj hopens'

end Runtime

end NfvActor.Actor
