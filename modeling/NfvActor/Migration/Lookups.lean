import Mathlib.Tactic
import NfvActor.Actor.FlowTables
import NfvActor.Actor.Awaiting
import NfvActor.Actor.Routes
import NfvActor.Timers.Requests

/-!
# The peers that handlers look up

Handlers of flow actors send their messages over `reliables_.find(k)` and do not ask whether there is such a
peer. The ids they look up are fixed when a flow or a migration starts.
-/

namespace NfvActor.Foundation

variable {Key Value α β : Type}

/-- A partial function of a table looks up these keys and no others, and fails if one is missing. -/
structure Reads (table : Key → Option Value) (f : (Key → Option Value) → Option α) (keys : List Key) : Prop where
  missing : ∀ key ∈ keys, table key = none → f table = none
  others : ∀ table', (∀ key ∈ keys, table' key = table key) → f table' = f table

namespace Reads

variable {table : Key → Option Value} {f : (Key → Option Value) → Option α} {keys keys' : List Key}

theorem lookup (table : Key → Option Value) (key : Key) : Reads table (fun table ↦ table key) [key] where
  missing _ hmem hnone := List.mem_singleton.1 hmem ▸ hnone
  others _ hsame := hsame key List.mem_cons_self

theorem present (table : Key → Option Value) (key : Key) (next : Option α) :
    Reads table (fun table ↦ if (table key).isSome then next else none) [key] where
  missing other hmem hnone := by
    rw [List.mem_singleton.1 hmem] at hnone
    simp [hnone]
  others table' hsame := by rw [hsame key List.mem_cons_self]

theorem done (h : ∀ table', f table' = f table) : Reads table f [] :=
  ⟨fun _ hmem ↦ absurd hmem List.not_mem_nil, fun table' _ ↦ h table'⟩

theorem fault (table : Key → Option Value) (keys : List Key) :
    Reads table (fun _ ↦ (none : Option α)) keys := ⟨fun _ _ _ ↦ rfl, fun _ _ ↦ rfl⟩

theorem same (h : Reads table f keys) (hkeys : ∀ key, key ∈ keys' ↔ key ∈ keys) : Reads table f keys' where
  missing key hmem := h.missing key ((hkeys key).1 hmem)
  others table' hsame := h.others table' fun key hmem ↦ hsame key ((hkeys key).2 hmem)

/-- What follows a lookup may depend on its result. -/
theorem andThen (h : Reads table f keys) {next : α → (Key → Option Value) → Option β}
    (hnext : ∀ a, f table = some a → Reads table (next a) keys') :
    Reads table (fun table ↦ (f table).bind fun a ↦ next a table) (keys ++ keys') := by
  constructor
  · intro key hmem hnone
    cases hf : f table with
    | none => rfl
    | some a =>
      rcases List.mem_append.1 hmem with hmem | hmem
      · cases (h.missing key hmem hnone).symm.trans hf
      · exact (hnext a hf).missing key hmem hnone
  · intro table' hsame
    rw [h.others table' fun key hmem ↦ hsame key (List.mem_append_left _ hmem)]
    cases hf : f table with
    | none => rfl
    | some a => exact (hnext a hf).others table' fun key hmem ↦ hsame key (List.mem_append_right _ hmem)

theorem bind (h : Reads table f keys) (next : α → Option β) : Reads table (fun table ↦ (f table).bind next) keys := by
  have hthen := h.andThen fun a _ ↦ done (f := fun _ ↦ next a) fun _ ↦ rfl
  rwa [List.append_nil] at hthen

theorem map (h : Reads table f keys) (g : α → β) : Reads table (fun table ↦ (f table).map g) keys := by
  simpa only [Option.map_eq_bind] using h.bind (some ∘ g)

end Reads

end NfvActor.Foundation

namespace NfvActor.Actor

open NfvActor.Foundation
open NfvActor.Reliable (Packet)

/-- The world in which a step takes place. -/
def Input.environment {σ : Type} : Input σ → Option (Environment σ)
  | .packet env _ | .message env _ _ | .fire env _ _ | .migrationIteration env | .recoveryIteration env =>
    some env
  | _ => none

/-- A world with other peers. -/
def Environment.among {σ : Type} (env : Environment σ) (peers : UInt32 → Option PeerView) : Environment σ :=
  { env with reliables := peers }

/-- The same step among other peers. -/
def Input.among {σ : Type} (peers : UInt32 → Option PeerView) : Input σ → Input σ
  | .packet env pkt => .packet (env.among peers) pkt
  | .message env senderRtid delivered => .message (env.among peers) senderRtid delivered
  | .fire env ptr kind => .fire (env.among peers) ptr kind
  | .migrationIteration env => .migrationIteration (env.among peers)
  | .recoveryIteration env => .recoveryIteration (env.among peers)
  | input => input

theorem Ledger.migration_remove (ledger : Ledger) (ptr : ℕ) :
    (ledger.remove ptr).migration = ledger.migration := by
  rw [remove]
  dsimp only
  split <;> rfl

namespace Runtime

variable {σ τ : Type}

/-- The lookup for the replica of a new flow. -/
def initLookups (rt : Runtime σ τ) (env : Environment σ) (pkt : Packet) : List UInt32 :=
  if (rt.htable (flowKeyOf pkt)).isNone ∧ rt.allocator.pop.isSome then env.replicaItem.toList else []

/-- The lookups for a message to a flow actor that has been initialised. -/
def flowActorLookups (rt : Runtime σ τ) (env : Environment σ) (senderRtid : UInt32) (ptr : ℕ) :
    MessageBody σ → List UInt32
  | .startMigrationResponse requestMsgId _ =>
    if requestMsgId = (rt.actors ptr).migrationTimer.requestMsgId then [(rt.actors ptr).inputHeader.destRtid]
    else []
  | .changeVswitchRouteResponse requestMsgId changeRouteSucceed =>
    if requestMsgId ≠ (rt.actors ptr).migrationTimer.requestMsgId then []
    else if (rt.actors ptr).currentState = .failureProcessing ∨ changeRouteSucceed = 1 then []
    else if (env.reliables rt.migration.targetRtId).any (fun peer ↦ peer.connectionUp && env.sendOk) then
      [rt.migration.targetRtId]
    else [rt.migration.targetRtId, (rt.actors ptr).inputHeader.destRtid]
  | .migrateFlowState _ => [senderRtid]
  | _ => []

/-- The lookup for the message that an armed timer triggers. -/
def timeoutLookups (rt : Runtime σ τ) (ptr : ℕ) : TimerMessage → List UInt32
  | .changeVswitchRouteTimeout | .migrateFlowStateTimeout | .replicaRecoverTimeout =>
    [(rt.actors ptr).inputHeader.destRtid]
  | .checkIdle | .startMigrationTimeout => []

/-- The actor that `coordinator_mp` takes off a list. -/
def picks (rt : Runtime σ τ) : Input σ → Option ℕ
  | .migrationIteration _ => rt.migrationPick
  | .recoveryIteration _ => rt.recoveryPick
  | _ => none

/-- The ids that the handlers of flow actors look up in `reliables_` in a step. -/
def lookups (rt : Runtime σ τ) : Input σ → List UInt32
  | .packet env pkt => rt.initLookups env pkt
  | .message env senderRtid message =>
    if message.recvActorId = coordinatorActorId then []
    else match rt.actoridHtable message.recvActorId with
      | none => []
      | some ptr =>
        if (rt.actors ptr).coordinatorSet then rt.flowActorLookups env senderRtid ptr message.body else []
  | .fire _ ptr kind =>
    let timer := (rt.actors ptr).timer kind
    if timer.requestMsgId = invalidMessageId then [] else rt.timeoutLookups ptr timer.msgType
  | .migrationIteration _ =>
    match rt.migrationPick with
    | none => []
    | some ptr =>
      if (rt.actors ptr).replicationState = .haveReplica then [] else [rt.migration.targetRtId]
  | .recoveryIteration _ =>
    match rt.recoveryPick with
    | none => []
    | some ptr => [(rt.actors ptr).inputHeader.destRtid]
  | _ => []

variable {env : Environment σ} {dest : UInt32} {rt : Runtime σ τ} {ptr : ℕ}

theorem reads_sendMessage (rt : Runtime σ τ) (env : Environment σ) (sendOk : Bool)
    (dest sendActorId recvActorId : UInt32) (body : MessageBody σ) :
    Reads env.reliables (fun peers ↦ rt.sendMessage (env.among peers) sendOk dest sendActorId recvActorId body)
      [dest] := by
  have hreads := (Reads.lookup env.reliables dest).bind fun peer ↦
    rt.sendMessage { env with reliables := fun _ ↦ some peer } sendOk dest sendActorId recvActorId body
  have heq (peers : UInt32 → Option PeerView) :
      rt.sendMessage (env.among peers) sendOk dest sendActorId recvActorId body = (peers dest).bind fun peer ↦
        rt.sendMessage { env with reliables := fun _ ↦ some peer } sendOk dest sendActorId recvActorId body := by
    simp only [sendMessage, Environment.among]
    cases peers dest <;> rfl
  simp only [heq]
  exact hreads

theorem destRtid_of_bearings {rt' : Runtime σ τ} (h : rt'.bearings = rt.bearings) (ptr : ℕ) :
    (rt'.actors ptr).inputHeader.destRtid = (rt.actors ptr).inputHeader.destRtid :=
  congrArg Prod.fst (congrFun (congrArg Bearings.routes h) ptr)

theorem reads_failureHandling (rt : Runtime σ τ) (env : Environment σ) (sendOk : Bool) (ptr : ℕ) :
    Reads env.reliables (fun peers ↦ rt.failureHandling (env.among peers) sendOk ptr)
      [(rt.actors ptr).inputHeader.destRtid] := by
  rw [← destRtid_of_bearings (bearings_enter rt ptr .failureProcessing)]
  exact (reads_sendMessage ..).bind _

theorem eq_of_mem_timeoutLookups {msgType : TimerMessage} (h : dest ∈ rt.timeoutLookups ptr msgType) :
    dest = (rt.actors ptr).inputHeader.destRtid := by
  cases msgType with
  | checkIdle | startMigrationTimeout => cases h
  | changeVswitchRouteTimeout | migrateFlowStateTimeout | replicaRecoverTimeout =>
    exact List.mem_singleton.1 h

/-- A peer is looked up to see whether it is connected, and again to send a message. -/
theorem reads_retry {again : (UInt32 → Option PeerView) → Option (Runtime σ τ)}
    (h : Reads env.reliables again [dest]) (otherwise : Runtime σ τ) :
    Reads env.reliables (fun peers ↦ (peers dest).bind fun peer ↦
      if peer.connectionUp then again peers else some otherwise) [dest] := by
  have hlookup := Reads.lookup env.reliables dest
  cases hpeer : (env.reliables dest).any PeerView.connectionUp with
  | true =>
    refine Reads.same (@Reads.andThen _ _ _ _ _ _ _ [dest] hlookup _ fun peer hsome ↦ ?_) (by simp)
    rw [hsome, Option.any_some] at hpeer
    simp only [hpeer, if_true]
    exact h
  | false =>
    refine @Reads.andThen _ _ _ _ _ _ _ [] hlookup _ fun peer hsome ↦ Reads.done fun _ ↦ ?_
    rw [hsome, Option.any_some] at hpeer
    simp [hpeer]

theorem reads_trigger (kind : TimerKind) : Reads env.reliables (fun peers ↦ rt.trigger (env.among peers) ptr kind)
    (rt.lookups (.fire env ptr kind)) := by
  simp only [trigger, lookups]
  split
  · exact Reads.fault ..
  · generalize ((rt.actors ptr).timer kind).msgType = msgType
    have hdest (other : TimerKind) :=
      destRtid_of_bearings (bearings_invalidate rt ptr other) ptr
    cases msgType with
    | checkIdle | startMigrationTimeout => exact Reads.done fun _ ↦ rfl
    | changeVswitchRouteTimeout =>
      rw [timeoutLookups, ← hdest .migration]
      exact reads_retry (reads_failureHandling ..) _
    | migrateFlowStateTimeout =>
      rw [timeoutLookups, ← hdest .migration]
      exact reads_failureHandling ..
    | replicaRecoverTimeout =>
      rw [timeoutLookups, ← hdest .replication]
      exact reads_retry ((reads_sendMessage ..).bind _) _

theorem reads_flowActorInitWithPkt (rt : Runtime σ τ) (env : Environment σ) (ptr : ℕ) (key : FlowKey)
    (pkt : Packet) : Reads env.reliables (fun peers ↦ rt.flowActorInitWithPkt (env.among peers) ptr key pkt)
      env.replicaItem.toList := by
  have hinput (peers : UInt32 → Option PeerView) :
      inputRtid (env.among peers) (srcMac pkt) = inputRtid env (srcMac pkt) := rfl
  simp only [flowActorInitWithPkt, hinput]
  cases inputRtid env (srcMac pkt) with
  | none => exact Reads.fault ..
  | some =>
    simp only [Option.bind_some, Environment.among]
    cases env.replicaItem with
    | none => exact Reads.done fun _ ↦ rfl
    | some replicaRtid => exact Reads.present env.reliables replicaRtid _

theorem reads_schedule (pkt : Packet) : Reads env.reliables (fun peers ↦ rt.schedule (env.among peers) pkt)
    (rt.initLookups env pkt) := by
  unfold initLookups
  simp only [schedule]
  cases rt.htable (flowKeyOf pkt) with
  | some => exact Reads.done fun _ ↦ rfl
  | none =>
    cases hallocate : rt.allocate with
    | none =>
      rw [if_neg (by simp [allocate_eq_none hallocate])]
      exact Reads.done fun _ ↦ rfl
    | some grant =>
      obtain ⟨ptr, occupied⟩ := grant
      obtain ⟨ring, hpop, -⟩ := allocate_spec hallocate
      rw [if_pos ⟨rfl, by rw [hpop]; rfl⟩]
      exact (reads_flowActorInitWithPkt (occupied.addTail .activeFlows ptr) env ptr (flowKeyOf pkt) pkt).bind
        fun opened : Runtime σ τ ↦ (opened.bind (flowKeyOf pkt) ptr).pktMsg env ptr pkt

/-- The flow state is sent to the target; if that fails the route is restored. -/
theorem reads_shipFlowState (rt : Runtime σ τ) (env : Environment σ) (ptr : ℕ) :
    Reads env.reliables (fun peers ↦ rt.shipFlowState (env.among peers) ptr)
      (if (env.reliables rt.migration.targetRtId).any (fun peer ↦ peer.connectionUp && env.sendOk) then
        [rt.migration.targetRtId] else [rt.migration.targetRtId, (rt.actors ptr).inputHeader.destRtid]) := by
  have hsend := reads_sendMessage (rt.enter ptr .afterRouteChange) env env.sendOk rt.migration.targetRtId
    ((rt.enter ptr .afterRouteChange).actors ptr).actorId
    ((rt.enter ptr .afterRouteChange).actors ptr).migrationTargetActorId
    (.migrateFlowState (rt.nfs.saveChain ((rt.enter ptr .afterRouteChange).actors ptr).chain env.staleStates))
  split
  · next hsent =>
    refine @Reads.andThen _ _ _ _ _ _ _ [] hsend _ fun sent hposted ↦ Reads.done fun peers ↦ ?_
    rw [(sendMessage_spec hposted).2.trans hsent]
    rfl
  · next hfails =>
    refine @Reads.andThen _ _ _ _ _ _ _ [_] hsend _ fun sent hposted ↦ ?_
    obtain ⟨hbase, hflag⟩ := sendMessage_spec hposted
    have hbearings : sent.2.bearings = rt.bearings := by
      rw [hbase]
      exact bearings_enter rt ptr .afterRouteChange
    rw [hflag.trans (Bool.eq_false_of_not_eq_true hfails), ← destRtid_of_bearings hbearings]
    exact reads_failureHandling sent.2 env env.secondSendOk ptr

theorem reads_matchFlowActor {senderRtid : UInt32} {message : Message σ} :
    Reads env.reliables (fun peers ↦ rt.matchFlowActor (env.among peers) senderRtid ptr message)
      (if (rt.actors ptr).coordinatorSet then rt.flowActorLookups env senderRtid ptr message.body else []) := by
  simp only [matchFlowActor]
  cases message.body with
  | startMigrationResponse requestMsgId targetId =>
    simp only [startMigrationResponse, flowActorLookups]
    by_cases hid : requestMsgId = (rt.actors ptr).migrationTimer.requestMsgId
    · simp only [if_neg (not_not.2 hid), if_pos hid]
      split
      · have hbearings : ((rt.invalidate ptr .migration).modifyActor ptr fun actor ↦
            { actor with migrationTargetActorId := targetId }).bearings = rt.bearings := by
          rw [bearings_modifyActor _ _ rfl rfl, bearings_invalidate]
        rw [← destRtid_of_bearings hbearings]
        exact (reads_sendMessage ..).bind _
      · exact Reads.fault ..
    · simp only [if_pos hid, if_neg hid, ite_self]
      exact Reads.done fun _ ↦ rfl
  | changeVswitchRouteResponse requestMsgId changeRouteSucceed =>
    simp only [changeVswitchRouteResponse, flowActorLookups]
    by_cases hid : requestMsgId ≠ (rt.actors ptr).migrationTimer.requestMsgId
    · simp only [if_pos hid, ite_self]
      exact Reads.done fun _ ↦ rfl
    · simp only [if_neg hid]
      split
      · have hstate : ((rt.invalidate ptr .migration).actors ptr).currentState = (rt.actors ptr).currentState := by
          simp [invalidate, modifyActor, FlowActor.setTimer]
        rw [hstate]
        split
        · exact Reads.done fun _ ↦ rfl
        · rw [← destRtid_of_bearings (bearings_invalidate rt ptr .migration)]
          exact reads_shipFlowState (rt.invalidate ptr .migration) env ptr
      · exact Reads.fault ..
  | migrateFlowState states =>
    simp only [migrateFlowState, flowActorLookups]
    split
    · exact (reads_sendMessage ..).bind _
    · exact Reads.done fun _ ↦ rfl
  | _ => simpa [flowActorLookups] using Reads.done fun _ ↦ rfl

theorem migrationIteration_of_no_pick (hpick : rt.migrationPick = none) (env env' : Environment σ) :
    rt.migrationIteration env' = rt.migrationIteration env := by
  unfold migrationPick at hpick
  unfold migrationIteration
  split at hpick
  · next hidle => rw [if_pos hidle, if_pos hidle]
  · next hgo =>
    rw [if_neg hgo, if_neg hgo]
    cases hfirst : rt.peekHead .activeFlows with
    | none => rfl
    | some first =>
      obtain rfl : first = none := by rwa [hfirst] at hpick
      rfl

theorem recoveryIteration_of_no_pick (hpick : rt.recoveryPick = none) (env env' : Environment σ) :
    rt.recoveryIteration env' = rt.recoveryIteration env := by
  unfold recoveryPick at hpick
  unfold recoveryIteration
  split at hpick
  · next hidle => rw [if_pos hidle, if_pos hidle]
  · next hgo =>
    rw [if_neg hgo, if_neg hgo]
    cases hhead : rt.replicaFlowLists rt.recovery.storageRtid with
    | none => rfl
    | some head =>
      rw [hhead, Option.bind_some] at hpick
      rw [Option.bind_some, Option.bind_some]
      cases hfirst : rt.peekHead (.replicaFlows head) with
      | none => rfl
      | some first =>
        obtain rfl : first = none := by rwa [hfirst] at hpick
        rfl

/-- Flow actors look up the listed peers and no others, and dereference a null pointer if one is not in
`reliables_`. -/
theorem step_reads (rt : Runtime σ τ) {input : Input σ} (henv : input.environment = some env)
    (hflow : ∀ senderRtid message, input = .message env senderRtid message →
      message.recvActorId ≠ coordinatorActorId) :
    Reads env.reliables (fun peers ↦ rt.step (input.among peers)) (rt.lookups input) := by
  cases input with
  | packet =>
    cases henv
    exact reads_schedule _
  | message _ senderRtid message =>
    cases henv
    have hrecv := hflow senderRtid message rfl
    simp only [lookups, if_neg hrecv, Input.among, step, matchMessage]
    cases rt.actoridHtable message.recvActorId with
    | none => exact Reads.done fun _ ↦ rfl
    | some => exact reads_matchFlowActor
  | fire =>
    cases henv
    exact reads_trigger _
  | migrationIteration =>
    cases henv
    simp only [lookups, Input.among, step]
    cases hpick : rt.migrationPick with
    | none => exact Reads.done fun _ ↦ migrationIteration_of_no_pick hpick ..
    | some ptr =>
      simp only [migrationIteration_of_pick hpick]
      cases hunlink : rt.unlink ptr with
      | none => exact Reads.fault ..
      | some unlinked =>
        simp only [Option.bind_some, unlink_spec hunlink, startMigration]
        split
        · exact Reads.done fun _ ↦ rfl
        · exact (reads_sendMessage ..).bind _
  | recoveryIteration =>
    cases henv
    simp only [lookups, Input.among, step]
    cases hpick : rt.recoveryPick with
    | none => exact Reads.done fun _ ↦ recoveryIteration_of_no_pick hpick ..
    | some ptr =>
      simp only [recoveryIteration_of_pick hpick]
      cases hunlink : rt.unlink ptr with
      | none => exact Reads.fault ..
      | some unlinked =>
        simp only [Option.bind_some, unlink_spec hunlink]
        exact ((reads_sendMessage ..).bind _).map _
  | _ => exact absurd henv (by simp [Input.environment])

/-- A first packet crashes a worker without a link to its next replica, and no other peer matters. -/
theorem step_reads_lost_replica :
    (smallBoot []).step (.packet { connected with replicaItem := some 5, reliables := fun _ ↦ none } (tcpPacket 7)) =
      none ∧
    ∀ peers : UInt32 → Option PeerView, peers 5 = some ⟨true, 0x21⟩ →
      (smallBoot []).step (.packet { connected with replicaItem := some 5, reliables := peers } (tcpPacket 7)) =
        (smallBoot []).step (.packet { connected with replicaItem := some 5 } (tcpPacket 7)) := by
  have hreads (known : UInt32 → Option PeerView) : Reads known (fun peers ↦ (smallBoot []).step
      (.packet { connected with replicaItem := some 5, reliables := peers } (tcpPacket 7))) [5] := by
    have henv : (Input.packet { connected with replicaItem := some 5, reliables := known } (tcpPacket 7)).environment =
        some { connected with replicaItem := some 5, reliables := known } := rfl
    have h := step_reads (smallBoot []) henv fun _ _ h ↦ nomatch h
    rwa [lookups, initLookups, if_pos (by decide +kernel)] at h
  constructor
  · exact (hreads fun _ ↦ none).missing 5 List.mem_cons_self rfl
  · intro peers hpeer
    refine (hreads connected.reliables).others peers fun key hkey ↦ ?_
    rw [List.mem_singleton.1 hkey, hpeer]
    rfl

/-! ## Peers that are known -/

/-- No flow is migrating, and none is asked to. -/
def NothingMigrates (rt : Runtime σ τ) : Prop :=
  rt.migration.qouta = 0 ∧ ∀ ptr, ¬(rt.timers ptr .migration).Armed

/-- Handlers will look up known peers; an unknown target is no concern while nothing migrates. -/
structure Acquainted (known : UInt32 → Prop) (rt : Runtime σ τ) : Prop where
  sound : rt.ledger.Sound
  input : ∀ ptr, rt.Allocated ptr → ptr ≠ deadendFlowActor → known (rt.routes ptr).1
  target : known rt.migration.targetRtId ∨ rt.NothingMigrates
  waiting : ∀ ptr kind, (rt.timers ptr kind).Armed → rt.Allocated ptr

namespace Acquainted

variable {known : UInt32 → Prop} {rt rt' : Runtime σ τ} {input : Input σ}

theorem mono (h : rt.Acquainted known) {known' : UInt32 → Prop}
    (hinput : ∀ ptr, rt.Allocated ptr → ptr ≠ deadendFlowActor → known (rt.routes ptr).1 →
      known' (rt.routes ptr).1)
    (htarget : known rt.migration.targetRtId → known' rt.migration.targetRtId ∨ rt.NothingMigrates) :
    rt.Acquainted known' where
  sound := h.sound
  input ptr hlive hptr := hinput ptr hlive hptr (h.input ptr hlive hptr)
  target := h.target.elim htarget .inr
  waiting := h.waiting

variable {ptr : ℕ}

/-- An actor that handles a message, a timeout or a pick is allocated. -/
theorem allocated_of_handler (h : rt.Acquainted known)
    (hpicks : ∀ ptr, rt.picks input = some ptr → rt.Allocated ptr) (hhandler : rt.handler input = some ptr)
    (hfires : ∀ env kind, input = .fire env ptr kind → (rt.timers ptr kind).Armed) : rt.Allocated ptr := by
  cases input with
  | message =>
    rw [handler] at hhandler
    split at hhandler
    · cases hhandler
    · exact h.sound.id_live _ ptr hhandler
  | fire env ptr' kind =>
    obtain rfl : ptr' = ptr := Option.some.inj hhandler
    exact h.waiting ptr' kind (hfires env kind rfl)
  | migrationIteration => exact hpicks ptr hhandler
  | recoveryIteration => exact hpicks ptr hhandler
  | _ => exact absurd hhandler (by simp [handler])

theorem flowActorLookups (h : rt.Acquainted known) {env : Environment σ} {senderRtid : UInt32} {id : UInt32}
    {body : MessageBody σ} (hentry : rt.actoridHtable id = some ptr)
    (hset : (rt.actors ptr).coordinatorSet = true)
    (hnamed : ∀ kind id, body.request = some (kind, id) → id ≠ invalidMessageId) (hsender : known senderRtid)
    {dest : UInt32} (hlookup : dest ∈ rt.flowActorLookups env senderRtid ptr body) : known dest := by
  have hinput : known (rt.actors ptr).inputHeader.destRtid :=
    h.input ptr (h.sound.id_live id ptr hentry) (h.sound.ne_deadend_of_set hset)
  unfold Runtime.flowActorLookups at hlookup
  split at hlookup
  · split at hlookup
    · obtain rfl := List.mem_singleton.1 hlookup
      exact hinput
    · cases hlookup
  · next requestMsgId changeRouteSucceed =>
    split at hlookup
    · cases hlookup
    · next hid =>
      have htarget : known rt.migration.targetRtId := by
        refine h.target.resolve_right fun hidle ↦ hidle.2 ptr ?_
        have harmed := hnamed .migration requestMsgId rfl
        rw [not_not.1 hid] at harmed
        exact harmed
      split at hlookup
      · cases hlookup
      · split at hlookup
        · obtain rfl := List.mem_singleton.1 hlookup
          exact htarget
        · rcases List.mem_pair.1 hlookup with rfl | rfl
          · exact htarget
          · exact hinput
  · obtain rfl := List.mem_singleton.1 hlookup
    exact hsender
  · cases hlookup

theorem lookups (h : rt.Acquainted known) (hnamed : Ledger.RepliesNamed input)
    (hpicks : ∀ ptr, rt.picks input = some ptr → rt.Allocated ptr)
    (hsender : ∀ env senderRtid message, input = .message env senderRtid message → known senderRtid)
    (hreplica : ∀ env dest, input.environment = some env → env.replicaItem = some dest → known dest)
    {dest : UInt32} (hlookup : dest ∈ rt.lookups input) : known dest := by
  cases input with
  | packet env =>
    simp only [Runtime.lookups, initLookups] at hlookup
    split at hlookup
    · exact hreplica env dest rfl (Option.mem_toList.1 hlookup)
    · cases hlookup
  | message env senderRtid message =>
    simp only [Runtime.lookups] at hlookup
    split at hlookup
    · cases hlookup
    · split at hlookup
      · cases hlookup
      · next ptr hentry =>
        split at hlookup
        · next hset => exact h.flowActorLookups hentry hset (hnamed · ·) (hsender env senderRtid message rfl) hlookup
        · cases hlookup
  | fire _ ptr kind =>
    simp only [Runtime.lookups] at hlookup
    split at hlookup
    · cases hlookup
    · next harmed =>
      obtain rfl := eq_of_mem_timeoutLookups hlookup
      refine h.input ptr (h.waiting ptr kind harmed) ?_
      have hon : ((rt.ledger.cards ptr).timer kind).Armed := by
        rw [cards_ledger, card_timer]
        exact harmed
      exact h.sound.ne_deadend_of_armed hon
  | migrationIteration =>
    simp only [Runtime.lookups] at hlookup
    split at hlookup
    · cases hlookup
    · next ptr hpick =>
      split at hlookup
      · cases hlookup
      · obtain rfl := List.mem_singleton.1 hlookup
        refine h.target.resolve_right fun hidle ↦ ?_
        rw [migrationPick, if_pos (.inl hidle.1)] at hpick
        cases hpick
  | recoveryIteration =>
    simp only [Runtime.lookups] at hlookup
    split at hlookup
    · cases hlookup
    · next ptr hpick =>
      obtain rfl := List.mem_singleton.1 hlookup
      refine h.input ptr (hpicks ptr hpick) ?_
      rw [recoveryPick] at hpick
      split at hpick
      · cases hpick
      · obtain ⟨head, -, hpick⟩ := Option.bind_eq_some_iff.1 hpick
        obtain ⟨first, hfirst, hsome⟩ := Option.bind_eq_some_iff.1 hpick
        obtain rfl : first = some ptr := hsome
        exact h.sound.ne_deadend_of_peekFirst (by simp) (peekHead_spec hfirst)
  | _ => cases hlookup

theorem armed_of_fire {env : Environment σ} {kind : TimerKind}
    (hstep : rt.step (.fire env ptr kind) = some rt') : (rt.timers ptr kind).Armed := by
  intro hoff
  have hfault : rt.trigger env ptr kind = none := if_pos hoff
  cases hfault.symm.trans hstep

/-- A timer is armed by an actor that waited for an answer, or was picked. -/
theorem armed_of_add (hsound : rt.ledger.Sound) (hnamed : Ledger.RepliesNamed input)
    (hstep : rt.step input = some rt') {list : TimerList} {msgId : UInt32} {msgType : TimerMessage}
    (hmem : .add ptr .migration list msgId msgType ∈ rt.timerCalls input) :
    (rt.timers ptr .migration).Armed ∨ rt.migrationPick = some ptr := by
  have hkind : TimerKind.migration ≠ .idle := by decide
  have hhandler := handler_of_add hkind hmem
  cases input with
  | message _ _ message =>
    left
    simp only [timerCalls] at hmem
    rw [handler] at hhandler
    split at hhandler
    · cases hhandler
    · next hrecv =>
      rw [if_neg hrecv, hhandler, Option.map_some, Option.getD_some, flowActorCalls] at hmem
      split at hmem
      · next kind requestMsgId hbody =>
        split at hmem
        · next hid =>
          have hrequest : kind = .migration := by
            cases hmessage : message.body <;> simp_all [MessageBody.request, answerCalls]
          have harmed := hnamed kind requestMsgId hbody
          rw [hid, hrequest] at harmed
          exact harmed
        · cases hmem
      · cases hmem
  | fire _ ptr' kind =>
    left
    obtain rfl : ptr' = ptr := Option.some.inj hhandler
    have harmed := armed_of_fire hstep
    have htyped : ((rt.actors ptr').timer kind).msgType.kind = kind := by
      have hon : ((rt.ledger.cards ptr').timer kind).Armed := by
        rw [cards_ledger, card_timer]
        exact harmed
      have hcard := hsound.typed ptr' kind hon
      rwa [cards_ledger, card_timer] at hcard
    simp only [timerCalls] at hmem
    generalize ((rt.actors ptr').timer kind).msgType = fired at hmem htyped
    have hfired : fired.kind = .migration := by
      cases fired <;> simp only [timeoutCalls] at hmem <;> (try split at hmem) <;>
        simp_all [TimerMessage.kind, removeCalls]
    rw [← hfired, htyped]
    exact harmed
  | migrationIteration => exact .inr hhandler
  | recoveryIteration =>
    simp only [timerCalls] at hmem
    split at hmem <;> simp at hmem
  | _ => exact absurd hhandler (by simp [handler])

/-- Only a command starts new migrations. -/
theorem idle_step (hidle : rt.NothingMigrates)
    (hsound : rt.ledger.Sound) (hnamed : Ledger.RepliesNamed input) (hstep : rt.step input = some rt')
    (hinput : ∀ migrationQouta runtimeId, input ≠ .migrateTo migrationQouta runtimeId) :
    rt'.NothingMigrates := by
  have heffect := step_effect hsound.blank input hstep
  constructor
  · have hqouta : rt.ledger.migration.qouta = 0 := hidle.1
    change rt'.ledger.migration.qouta = 0
    generalize rt'.ledger = ledger' at heffect
    cases heffect with
    | skipMigration _ hne => exact absurd hqouta hne
    | refuse _ _ hne => exact absurd hqouta hne
    | depart _ _ _ hne => exact absurd hqouta hne
    | migrateTo migrationQouta runtimeId => exact absurd rfl (hinput migrationQouta runtimeId)
    | expire _ ptr | complete _ _ _ ptr =>
      exact (congrArg MigrationAccount.qouta (Ledger.migration_remove _ ptr)).trans hqouta
    | addStorage =>
      rw [Ledger.addStorage]
      split <;> exact hqouta
    | removeStorage =>
      rw [Ledger.removeStorage]
      split <;> exact hqouta
    | _ => exact hqouta
  · intro ptr harmed
    rcases TimerTable.calls_cases (step_makes input hstep).run ptr .migration with
      ⟨-, hsame⟩ | hoff | ⟨list, msgId, msgType, hmem, -⟩
    · rw [hsame] at harmed
      exact hidle.2 ptr harmed
    · exact harmed hoff
    · rcases armed_of_add hsound hnamed hstep hmem with hon | hpick
      · exact hidle.2 ptr hon
      · rw [migrationPick, if_pos (.inl hidle.1)] at hpick
        cases hpick

theorem step (h : rt.Acquainted known) (hstep : rt.step input = some rt')
    (hnamed : Ledger.RepliesNamed input) (hpicks : ∀ ptr, rt.picks input = some ptr → rt.Allocated ptr)
    (hfounds : ∀ key ends, rt.Founds input key ends → known ends.1)
    (htarget : ∀ migrationQouta runtimeId, input = .migrateTo migrationQouta runtimeId →
      rt.migration.qouta = 0 → known runtimeId) : rt'.Acquainted known := by
  have heffect := step_effect h.sound.blank input hstep
  have hsound := h.sound.effect heffect
  have htenure := heffect.tenure h.sound
  have hreroute := step_reroute hstep
  refine ⟨hsound, fun ptr hlive hptr ↦ ?_, ?_, fun ptr kind harmed ↦ ?_⟩
  · cases htenure ptr with
    | keeps hkept =>
      have hold : rt.ledger.Live ptr := hkept.1 hlive
      rw [hreroute.input_eq fun ring hpop ↦ (h.sound.pool.pop hpop).2.1 hold]
      exact h.input ptr hold hptr
    | begins _ key _ _ hpop hadmits =>
      obtain ⟨key, hends⟩ := hreroute.founded hpop hadmits
      exact hfounds key _ hends
    | ends hgone => exact absurd hlive hgone
  · by_cases hmigrate : ∃ migrationQouta runtimeId, input = .migrateTo migrationQouta runtimeId
    · obtain ⟨migrationQouta, runtimeId, rfl⟩ := hmigrate
      cases hstep
      rw [migrateTo]
      split
      · next hdone => exact .inl (htarget migrationQouta runtimeId rfl hdone)
      · exact h.target
    · push Not at hmigrate
      refine h.target.imp (fun hknown ↦ ?_) fun hidle ↦ idle_step hidle h.sound hnamed hstep hmigrate
      rwa [hreroute.target_eq hmigrate]
  · have hcard : (rt'.ledger.cards ptr).timer kind = rt'.timers ptr kind := card_timer _ _
    rw [← hcard] at harmed
    by_cases hidle : kind = .idle
    · subst hidle
      exact hsound.idle_live ptr harmed
    · have hold : rt.ledger.Live ptr := by
        rw [hcard] at harmed
        rcases TimerTable.calls_cases (step_makes input hstep).run ptr kind with
          ⟨-, hsame⟩ | hoff | ⟨list, msgId, msgType, hmem, -⟩
        · rw [hsame] at harmed
          exact h.waiting ptr kind harmed
        · exact absurd hoff harmed
        · refine h.allocated_of_handler hpicks (handler_of_add hidle hmem) ?_
          rintro env fired rfl
          exact armed_of_fire hstep
      cases htenure ptr with
      | keeps hkept => exact hkept.2 hold
      | begins _ _ hfree => exact absurd hold hfree
      | ends _ _ hoff => exact absurd harmed (hoff kind)

theorem boot (known : UInt32 → Prop) (config : RuntimeConfig) (serviceChain : List ℕ)
    (code : ℕ → NetworkFunction σ τ) (zero : ℕ → σ) (sharedState : ℕ → τ) :
    (Runtime.boot config serviceChain code zero sharedState).Acquainted known := by
  have hblank (ptr : ℕ) (kind : TimerKind) :
      ¬((Runtime.boot config serviceChain code zero sharedState).timers ptr kind).Armed := by
    have hoff := (blank_boot config serviceChain code zero sharedState ptr).timers kind
    rwa [cards_ledger, card_timer] at hoff
  refine ⟨sound_boot config serviceChain code zero sharedState, fun ptr hlive hptr ↦ ?_,
    .inr ⟨rfl, fun ptr ↦ hblank ptr .migration⟩, fun ptr kind harmed ↦ absurd harmed (hblank ptr kind)⟩
  have honly : (Runtime.boot config serviceChain code zero sharedState).ledger.Live ptr := hlive
  exact absurd (live_boot honly) hptr

end Acquainted

end Runtime

end NfvActor.Actor
