import Mathlib.Tactic
import NfvActor.Actor.MigrationAccount
import NfvActor.Timers.Calls

/-!
# Recovery accounting

`coordinator_mp` pops replicas from the list of a failed runtime, and each asks its input runtime to redirect
the flow. `out_going_recovery_` is meant to count those that wait, so that the round ends. The idle check
removes a waiting replica without taking it off the count, and every answer is counted as a success.
-/

namespace NfvActor.Actor

open NfvActor.Foundation
open NfvActor.Actor.Runtime (deadendFlowActor)
open NfvActor.Reliable (Packet)
open Function
open Option (bind_eq_some_iff map_eq_some_iff)

namespace Ledger

variable {σ : Type} {ledger ledger' : Ledger} {ptr : ℕ}

/-- The actor waits for the answer to `replica_recover_t`. -/
def Recovering (ledger : Ledger) (ptr : ℕ) : Prop := (ledger.cards ptr).replicationTimer.Armed

/-- The live actors that wait for an answer to `replica_recover_t`. -/
def recoveringActors (ledger : Ledger) : Finset ℕ :=
  ledger.census fun card ↦ decide card.replicationTimer.Armed

theorem mem_recoveringActors : ptr ∈ ledger.recoveringActors ↔ ledger.Live ptr ∧ ledger.Recovering ptr := by
  rw [recoveringActors, mem_census, decide_eq_true_iff]
  exact Iff.rfl

/-- The effects of a step seen from the recovery of replicas. -/
inductive RecoveryEffect (ledger : Ledger) : Input σ → Ledger → Prop
  | aside (input : Input σ) (ledger' : Ledger) : ledger'.recovery = ledger.recovery →
      (∀ ptr, (ledger'.cards ptr).replicationTimer = (ledger.cards ptr).replicationTimer) →
      (∀ ptr, ledger.Live ptr → ledger'.Live ptr) → RecoveryEffect ledger input ledger'
  | dismiss (input : Input σ) (ledger' : Ledger) (ptr : ℕ) : ledger.Dismisses input ptr →
      ledger'.recovery = ledger.recovery → ledger.Alters ledger' ptr → ledger.Live ptr →
      ¬ledger'.Live ptr → ¬ledger'.Recovering ptr → RecoveryEffect ledger input ledger'
  | coordinator (input : Input σ) (ledger' : Ledger) :
      (∃ env, input = .recoveryIteration env) ∨ (∃ runtimeId, input = .recover runtimeId) →
      RecoveryEffect ledger input ledger'
  | answered (input : Input σ) (ledger' : Ledger) (ptr : ℕ) : ledger.Answers input ptr .replication →
      RecoveryEffect ledger input ledger'

/-- The counters of the recovery change with a step of its round only. -/
theorem Effect.recovery_eq {input : Input σ} (heffect : ledger.Effect input ledger') :
    ledger'.recovery = ledger.recovery ∨ (∃ env, input = .recoveryIteration env) ∨
      (∃ runtimeId, input = .recover runtimeId) ∨ ∃ ptr, ledger.Answers input ptr .replication := by
  cases heffect with
  | startRecovery env | recoveryDone env => exact .inr (.inl ⟨env, rfl⟩)
  | recover runtimeId => exact .inr (.inr (.inl ⟨runtimeId, rfl⟩))
  | retryRecovery _ ptr _ hanswers | endRecovery _ ptr _ hanswers => exact .inr (.inr (.inr ⟨ptr, hanswers⟩))
  | expire =>
    rw [Ledger.remove]
    split <;> exact .inl rfl
  | complete =>
    rw [Ledger.complete, Ledger.remove]
    split <;> exact .inl rfl
  | addStorage =>
    rw [Ledger.addStorage]
    split <;> exact .inl rfl
  | removeStorage =>
    rw [Ledger.removeStorage]
    split <;> exact .inl rfl
  | _ => exact .inl rfl

theorem Effect.recovery (hsound : ledger.Sound) {input : Input σ} (heffect : ledger.Effect input ledger') :
    ledger.RecoveryEffect input ledger' := by
  rcases heffect.recovery_eq with hrecovery | ⟨env, henv⟩ | ⟨runtimeId, hrecover⟩ | ⟨ptr, hanswers⟩
  · cases heffect.shift hsound with
    | turn ptr card halters hallocator hcard hturn =>
      have haside (htimer : card.replicationTimer = (ledger.cards ptr).replicationTimer) :
          ledger.RecoveryEffect input ledger' := by
        refine .aside _ _ hrecovery (fun other ↦ ?_) fun other hlive ↦ by rwa [Live, hallocator]
        by_cases heq : other = ptr
        · rw [heq, hcard, htimer]
        · rw [halters.cards other heq]
      cases hturn with
      | awaitRecovery _ hcause =>
        exact hcause.elim (fun henv ↦ .coordinator _ _ (.inl henv)) (.answered _ _ ptr)
      | endRecovery hanswers => exact .answered _ _ ptr hanswers
      | _ => exact haside rfl
    | enroll ptr _ _ _ hadmitted =>
      refine .aside _ _ hrecovery (fun other ↦ ?_) fun other hlive ↦ ?_
      · by_cases heq : other = ptr
        · rw [heq, hadmitted.card]
          rfl
        · rw [hadmitted.alters.cards other heq]
      · have hne : other ≠ ptr := fun heq ↦ hadmitted.free (heq ▸ hlive)
        exact (hadmitted.alters.live other hne).2 hlive
    | dismiss ptr hdismissed =>
      exact .dismiss _ _ ptr hdismissed.dismisses hrecovery hdismissed.alters hdismissed.live hdismissed.gone
        (hdismissed.off .replication)
  · exact .coordinator _ _ (.inl ⟨env, henv⟩)
  · exact .coordinator _ _ (.inr ⟨runtimeId, hrecover⟩)
  · exact .answered _ _ ptr hanswers

end Ledger

namespace Runtime

variable {σ τ : Type} {rt rt' : Runtime σ τ}

/-- The outcome in a `replica_recover_response_t` with the id of its timer. -/
def recoveryAnswer (rt : Runtime σ τ) : Input σ → Option UInt32
  | .message _ _ message =>
    if message.recvActorId = coordinatorActorId then none
    else (rt.actoridHtable message.recvActorId).bind fun ptr ↦
      match message.body with
      | .replicaRecoverResponse requestMsgId changeRouteSucceed =>
        if requestMsgId = (rt.actors ptr).replicationTimer.requestMsgId then some changeRouteSucceed
        else none
      | _ => none
  | _ => none

/-- The number of replicas that the step pops for recovery. -/
def pops (rt : Runtime σ τ) : Input σ → ℕ
  | .recoveryIteration _ => if rt.recoveryPick.isSome then 1 else 0
  | _ => 0

/-- The step is a `recover` that begins a round. -/
def beginsRound (rt : Runtime σ τ) : Input σ → Bool
  | .recover _ => rt.recovery.storageRtid == 0
  | _ => false

variable {input : Input σ} {env : Environment σ} {ptr : ℕ}

/-- A `replica_recover_response_t` with the right id ends the recovery of its actor. -/
theorem recoveryAnswer_spec {outcome : UInt32} (h : rt.step input = some rt')
    (hanswer : rt.recoveryAnswer input = some outcome) :
    ∃ ptr, rt.ledger.Answers input ptr .replication ∧ rt'.ledger = rt.ledger.endRecovery ptr true := by
  unfold recoveryAnswer at hanswer
  split at hanswer
  · next env senderRtid message =>
    split at hanswer
    · cases hanswer
    · next hrecv =>
      obtain ⟨ptr, hptr, hanswer⟩ := bind_eq_some_iff.1 hanswer
      split at hanswer
      · next requestMsgId succeed hbody =>
        split at hanswer
        · next hid =>
          have hresponse : rt.replicaRecoverResponse ptr requestMsgId = some rt' := by
            rw [step, matchMessage, if_neg hrecv, hptr] at h
            dsimp only at h
            rw [matchFlowActor, hbody] at h
            exact h
          rcases replicaRecoverResponse_spec hresponse with ⟨hother, -⟩ | ⟨-, hset, rfl⟩
          · exact absurd hid hother
          · refine ⟨ptr, .response env senderRtid message ptr .replication ⟨hrecv, hptr, hset⟩ ?_,
              ledger_recovered rt ptr⟩
            rw [hbody, hid]
            rfl
        · cases hanswer
      · cases hanswer
  · cases hanswer

theorem recoveryAnswer_of_answers {senderRtid : UInt32} {message : Message σ}
    (h : rt.ledger.Answers (.message env senderRtid message) ptr .replication) :
    ∃ outcome, rt.recoveryAnswer (.message env senderRtid message) = some outcome := by
  cases h with
  | response _ _ _ _ _ hdelivers hrequest =>
    have hptr : rt.actoridHtable message.recvActorId = some ptr := hdelivers.2.1
    rw [recoveryAnswer, if_neg hdelivers.1, hptr]
    cases hbody : message.body with
    | replicaRecoverResponse _ succeed =>
      rw [hbody] at hrequest
      simp only [MessageBody.request, Option.some.injEq, Prod.mk.injEq, true_and] at hrequest
      refine ⟨succeed, ?_⟩
      exact if_pos hrequest
    | _ => rw [hbody] at hrequest; simp [MessageBody.request] at hrequest

/-- A timeout sends the request again, or gives the recovery up. -/
theorem trigger_recovery {other : ℕ} {kind : TimerKind}
    (hanswers : rt.ledger.Answers (.fire env ptr kind) other .replication)
    (h : rt.trigger env ptr kind = some rt') : other = ptr ∧
      (rt'.ledger = rt.ledger.awaitRecovery ptr rt.nextMsgId ∨
        rt'.ledger = rt.ledger.endRecovery ptr false) := by
  have htype : other = ptr ∧ ((rt.actors ptr).timer kind).msgType = .replicaRecoverTimeout := by
    generalize hkind : TimerKind.replication = target at hanswers
    cases hanswers with
    | timeout =>
      refine ⟨rfl, ?_⟩
      rw [cards_ledger, card_timer] at hkind
      cases hmsg : ((rt.actors ptr).timer kind).msgType <;> rw [hmsg] at hkind <;>
        first | rfl | exact absurd hkind (by simp [TimerMessage.kind])
  refine ⟨htype.1, ?_⟩
  have hstep : rt.step (.fire env ptr kind) = some rt' := h
  cases step_outcome hstep with
  | ask _ _ _ _ _ hprepares =>
    cases hprepares with
    | back => simp_all
    | recoverAgain =>
      left
      rw [ledger_ask, ledger_invalidate, Ledger.disarm, Ledger.modifyCard_modifyCard]
      rfl
  | notRecovered => exact .inr (ledger_notRecovered rt ptr)
  | rest _ hrests => cases hrests
  | tally _ _ htallies => cases htallies
  | newFlow _ _ _ _ hopens => cases hopens
  | abandon _ _ _ habandons =>
    cases habandons
    simp_all
  | _ => simp_all

/-- An iteration of the second loop of `coordinator_mp` pops the first replica, or finds none and ends the round
if nobody waits. -/
theorem recoveryIteration_cases (h : rt.recoveryIteration env = some rt') :
    (rt.recoveryPick = none ∧ (rt' = rt ∨ rt.recovery.outGoing = 0 ∧
        rt' = { rt with recovery := { rt.recovery with storageRtid := 0 } })) ∨
      ∃ ptr, rt.recoveryPick = some ptr ∧ rt.recovery.storageRtid ≠ 0 ∧ rt.recovery.outGoing ≤ 128 ∧
        ¬rt.ledger.Recovering ptr ∧ rt'.ledger =
          ((rt.ledger.unlink ptr).awaitRecovery ptr rt.nextMsgId).setRecovery
            { rt.recovery with outGoing := rt.recovery.outGoing + 1 } := by
  have hstep : rt.step (.recoveryIteration env) = some rt' := h
  cases step_outcome hstep with
  | rest _ hrests =>
    cases hrests with
    | noRecovery _ hpick => exact .inl ⟨hpick, .inl rfl⟩
  | tally _ _ htallies =>
    cases htallies with
    | recoveryDone _ hpick hnobody => exact .inl ⟨hpick, .inr ⟨hnobody, rfl⟩⟩
  | ask _ _ _ ptr _ hprepares =>
    cases hprepares with
    | recover _ _ _ hpick hidle =>
      obtain ⟨⟨hstorage, hroom⟩, -⟩ := recoveryPick_spec hpick
      refine .inr ⟨ptr, hpick, hstorage, UInt64.not_lt.1 hroom, hidle, ?_⟩
      rw [ledger_ask]
      rfl
  | abandon _ _ _ habandons => cases habandons
  | newFlow _ _ _ _ hopens => cases hopens

/-! ## What a step does to the round -/

/-- Responses name a request and report that the route has changed, message ids have not wrapped around to that
of a disarmed timer, the popped replica is allocated, and no actor that waits for the answer to
`replica_recover_t` is removed. -/
structure KeepsRecoveries (rt : Runtime σ τ) (input : Input σ) : Prop where
  named : Ledger.RepliesNamed input
  reported : ∀ outcome, rt.recoveryAnswer input = some outcome → outcome = 0
  numbered : rt.nextMsgId ≠ invalidMessageId
  popped : ∀ env ptr, input = .recoveryIteration env → rt.recoveryPick = some ptr → rt.Allocated ptr
  idle : ∀ env ptr kind, input = .fire env ptr kind →
    ((rt.actors ptr).timer kind).msgType = .checkIdle → (rt.actors ptr).replicationTimer.Armed →
    (rt.actors ptr).sampleCounter ≠ (rt.actors ptr).pktCounter
  migrated : ∀ env senderRtid message ptr, input = .message env senderRtid message →
    rt.ledger.Delivers message ptr →
    message.body = .migrateFlowStateResponse (rt.actors ptr).migrationTimer.requestMsgId →
    ¬(rt.actors ptr).replicationTimer.Armed

theorem KeepsRecoveries.dismissed (hguard : rt.KeepsRecoveries input) (hstep : rt.step input = some rt')
    (hdismisses : rt.ledger.Dismisses input ptr) (hlive : rt.ledger.Live ptr) (hgone : ¬rt'.ledger.Live ptr) :
    ¬rt.ledger.Recovering ptr := by
  intro hwaits
  cases hdismisses with
  | idle env _ kind htype =>
    rw [cards_ledger, card_timer] at htype
    have hcount := hguard.idle env ptr kind rfl htype hwaits
    cases step_outcome hstep with
    | leave _ _ _ _ _ hleaves => exact hcount hleaves.2
    | idleAgain => exact hgone hlive
    | rest _ hrests => cases hrests
    | tally _ _ htallies => cases htallies
    | newFlow _ _ _ _ hopens => cases hopens
    | abandon _ _ _ habandons =>
      cases habandons
      simp_all
    | ask _ _ _ _ _ hprepares => cases hprepares <;> simp_all
    | notRecovered => simp_all
  | migrated env senderRtid message _ hdelivers hbody =>
    exact hguard.migrated env senderRtid message ptr rfl hdelivers hbody hwaits

/-- An actor that waits for the answer to `replica_recover_t` is live. -/
def WaitersLive (rt : Runtime σ τ) : Prop := ∀ ptr, rt.ledger.Recovering ptr → rt.ledger.Live ptr

/-- The number of actors that wait for the answer to `replica_recover_t`. -/
def waiters (rt : Runtime σ τ) : ℕ := rt.ledger.recoveringActors.card

/-- What a step does to the round of recovery. -/
inductive RoundStep (rt : Runtime σ τ) (input : Input σ) (rt' : Runtime σ τ) : Prop
  | still (storageRtid : UInt32) : rt.pops input = 0 → rt.recoveryAnswer input = none →
      rt.beginsRound input = false → rt'.recovery = { rt.recovery with storageRtid } →
      rt'.waiters = rt.waiters →
      storageRtid = rt.recovery.storageRtid ∨ rt.recovery.outGoing = 0 → RoundStep rt input rt'
  | popped : rt.pops input = 1 → rt.recoveryAnswer input = none → rt.beginsRound input = false →
      rt.recovery.storageRtid ≠ 0 → rt.recovery.outGoing ≤ 128 →
      rt'.recovery = { rt.recovery with outGoing := rt.recovery.outGoing + 1 } →
      rt'.waiters = rt.waiters + 1 → RoundStep rt input rt'
  | finished (succeeded : Bool) : rt.pops input = 0 →
      rt.recoveryAnswer input = (if succeeded then some 0 else none) → rt.beginsRound input = false →
      rt'.recovery = { rt.recovery with
        successful := if succeeded then rt.recovery.successful + 1 else rt.recovery.successful
        unsuccessful := if succeeded then rt.recovery.unsuccessful else rt.recovery.unsuccessful + 1
        outGoing := rt.recovery.outGoing - 1 } →
      rt'.waiters + 1 = rt.waiters → RoundStep rt input rt'
  | begun (runtimeId : UInt32) : rt.beginsRound input = true → rt.recovery.storageRtid = 0 →
      rt'.recovery = { rt.recovery with
        storageRtid := runtimeId
        iteration := rt.recovery.iteration + 1
        successful := 0
        unsuccessful := 0 } →
      rt'.waiters = rt.waiters → RoundStep rt input rt'

theorem not_recovering_endRecovery {succeeded : Bool}
    (hledger : rt'.ledger = rt.ledger.endRecovery ptr succeeded) : ¬rt'.ledger.Recovering ptr := by
  rw [Ledger.Recovering, hledger]
  simp [Ledger.endRecovery, Ledger.addTail, Ledger.dropReplica, Ledger.disarm, Ledger.modifyCard,
    Ledger.setCard, Card.setTimer, Card.timer, ActorTimer.invalidate, ActorTimer.Armed]

section Steps

variable {input : Input σ} {ptr : ℕ} (hsound : rt.ledger.Sound) (hlive : rt.WaitersLive)
  (hguard : rt.KeepsRecoveries input)

include hlive in
/-- Neither the waiting actors nor the counters change. -/
theorem waiters_of_same (htimer : ∀ ptr, rt'.ledger.Recovering ptr ↔ rt.ledger.Recovering ptr)
    (hkeeps : ∀ ptr, rt.ledger.Recovering ptr → rt'.ledger.Live ptr) :
    rt'.waiters = rt.waiters ∧ rt'.WaitersLive := by
  refine ⟨congrArg Finset.card ?_, fun ptr hwaits ↦ hkeeps ptr ((htimer ptr).1 hwaits)⟩
  ext ptr
  rw [Ledger.mem_recoveringActors, Ledger.mem_recoveringActors, htimer]
  constructor
  · exact fun h ↦ ⟨hlive ptr h.2, h.2⟩
  · exact fun h ↦ ⟨hkeeps ptr h.2, h.2⟩

include hlive in
theorem waiters_endRecovery {succeeded : Bool} (hledger : rt'.ledger = rt.ledger.endRecovery ptr succeeded)
    (hwaits : rt.ledger.Recovering ptr) : rt'.waiters + 1 = rt.waiters ∧ rt'.WaitersLive := by
  have halters : rt.ledger.Alters rt'.ledger ptr := by
    rw [hledger]
    exact .of_touches (.endRecovery rt.ledger ptr succeeded)
  have hoff := not_recovering_endRecovery hledger
  constructor
  · refine halters.card_census_end ?_ ?_
    · exact Ledger.mem_recoveringActors.2 ⟨hlive ptr hwaits, hwaits⟩
    · exact fun hmem ↦ hoff (Ledger.mem_recoveringActors.1 hmem).2
  · intro other hother
    have hne : other ≠ ptr := by
      rintro rfl
      exact hoff hother
    rw [Ledger.Recovering, halters.cards other hne] at hother
    exact (halters.live other hne).2 (hlive other hother)

include hsound hlive hguard in
/-- A step that is not of `coordinator_mp` or a command and answers no request. -/
theorem still_of_effect (hstep : rt.step input = some rt')
    (hiteration : ∀ env, input ≠ .recoveryIteration env) (hrecover : ∀ runtimeId, input ≠ .recover runtimeId)
    (hanswers : ∀ ptr, ¬rt.ledger.Answers input ptr .replication) :
    rt'.recovery = rt.recovery ∧ rt'.waiters = rt.waiters ∧ rt'.WaitersLive := by
  have heffect := (step_effect hsound.blank input hstep).recovery hsound
  cases heffect with
  | aside hrecovery htimer hkeeps =>
    refine ⟨hrecovery, waiters_of_same hlive ?_ fun ptr hwaits ↦ hkeeps ptr (hlive ptr hwaits)⟩
    intro ptr
    rw [Ledger.Recovering, Ledger.Recovering, htimer]
  | dismiss ptr hdismisses hrecovery halters hbefore hgone hoff =>
    have hnot := hguard.dismissed hstep hdismisses hbefore hgone
    refine ⟨hrecovery, waiters_of_same hlive ?_ ?_⟩
    · intro other
      by_cases heq : other = ptr
      · rw [heq]
        exact iff_of_false hoff hnot
      · rw [Ledger.Recovering, Ledger.Recovering, halters.cards other heq]
    · intro other hwaits
      have hne : other ≠ ptr := by
        rintro rfl
        exact hnot hwaits
      exact (halters.live other hne).2 (hlive other hwaits)
  | coordinator hinput =>
    rcases hinput with ⟨env, rfl⟩ | ⟨runtimeId, rfl⟩
    · exact absurd rfl (hiteration env)
    · exact absurd rfl (hrecover runtimeId)
  | answered ptr hanswered => exact absurd hanswered (hanswers ptr)

variable {env : Environment σ}

include hsound hlive hguard in
theorem message_round {senderRtid : UInt32} {message : Message σ}
    (hinput : input = .message env senderRtid message) (hstep : rt.step input = some rt') :
    rt.RoundStep input rt' ∧ rt'.WaitersLive := by
  subst hinput
  cases hanswer : rt.recoveryAnswer (.message env senderRtid message) with
  | some outcome =>
    obtain ⟨ptr, hanswers, hledger⟩ := recoveryAnswer_spec hstep hanswer
    have hwaits : rt.ledger.Recovering ptr := Ledger.armed_of_answers hsound hguard.named hanswers
    obtain ⟨hcount, hlive'⟩ := waiters_endRecovery hlive hledger hwaits
    refine ⟨.finished true rfl ?_ rfl (congrArg Ledger.recovery hledger) hcount, hlive'⟩
    rw [hanswer, hguard.reported outcome hanswer]
    rfl
  | none =>
    have hnone : ∀ ptr, ¬rt.ledger.Answers (.message env senderRtid message) ptr .replication := by
      intro ptr hanswers
      obtain ⟨outcome, hsome⟩ := recoveryAnswer_of_answers hanswers
      rw [hanswer] at hsome
      cases hsome
    obtain ⟨hrecovery, hcount, hlive'⟩ := still_of_effect hsound hlive hguard hstep (by simp) (by simp) hnone
    exact ⟨.still _ rfl hanswer rfl hrecovery hcount (.inl rfl), hlive'⟩

include hsound hlive hguard in
theorem fire_round {kind : TimerKind} (hinput : input = .fire env ptr kind)
    (hstep : rt.step input = some rt') : rt.RoundStep input rt' ∧ rt'.WaitersLive := by
  subst hinput
  by_cases hanswers : ∃ other, rt.ledger.Answers (.fire env ptr kind) other .replication
  · obtain ⟨other, hanswers⟩ := hanswers
    obtain ⟨rfl, hledger⟩ := trigger_recovery hanswers hstep
    have hwaits : rt.ledger.Recovering other := Ledger.armed_of_answers hsound hguard.named hanswers
    rcases hledger with hledger | hledger
    · have halters : rt.ledger.Alters rt'.ledger other := by
        rw [hledger]
        exact .of_touches (.awaitRecovery rt.ledger other rt.nextMsgId)
      have hagain : rt'.ledger.Recovering other := by
        rw [Ledger.Recovering, hledger, Ledger.awaitRecovery, Ledger.modifyCard, Ledger.cards_setCard]
        exact hguard.numbered
      have hallocator : rt'.ledger.allocator = rt.ledger.allocator := by
        rw [hledger]
        rfl
      have htimer : ∀ ptr, rt'.ledger.Recovering ptr ↔ rt.ledger.Recovering ptr := by
        intro ptr
        by_cases heq : ptr = other
        · rw [heq]
          exact iff_of_true hagain hwaits
        · rw [Ledger.Recovering, Ledger.Recovering, halters.cards ptr heq]
      have hkeeps : ∀ ptr, rt.ledger.Recovering ptr → rt'.ledger.Live ptr := by
        intro ptr hptr
        rw [Ledger.Live, hallocator]
        exact hlive ptr hptr
      obtain ⟨hcount, hlive'⟩ := waiters_of_same hlive htimer hkeeps
      exact ⟨.still _ rfl rfl rfl (congrArg Ledger.recovery hledger) hcount (.inl rfl), hlive'⟩
    · obtain ⟨hcount, hlive'⟩ := waiters_endRecovery hlive hledger hwaits
      exact ⟨.finished false rfl rfl rfl (congrArg Ledger.recovery hledger) hcount, hlive'⟩
  · obtain ⟨hrecovery, hcount, hlive'⟩ :=
      still_of_effect hsound hlive hguard hstep (by simp) (by simp) (not_exists.1 hanswers)
    exact ⟨.still _ rfl rfl rfl hrecovery hcount (.inl rfl), hlive'⟩

include hlive hguard in
theorem recoveryIteration_round (hinput : input = .recoveryIteration env) (hstep : rt.step input = some rt') :
    rt.RoundStep input rt' ∧ rt'.WaitersLive := by
  subst hinput
  rcases recoveryIteration_cases hstep with ⟨hpick, rfl | ⟨hnobody, rfl⟩⟩ |
    ⟨ptr, hpick, hstorage, hroom, hidle, hledger⟩
  · exact ⟨.still _ (by simp [pops, hpick]) rfl rfl rfl rfl (.inl rfl), hlive⟩
  · exact ⟨.still 0 (by simp [pops, hpick]) rfl rfl rfl rfl (.inr hnobody), hlive⟩
  · have hptr : rt.ledger.Live ptr := hguard.popped env ptr rfl hpick
    have halters : rt.ledger.Alters rt'.ledger ptr := by
      have hunlink : rt.ledger.Touches (rt.ledger.unlink ptr) ptr := .of_cards_eq rfl rfl rfl rfl rfl rfl rfl
      have hawait := Ledger.Alters.of_touches (hunlink.trans (.awaitRecovery _ ptr rt.nextMsgId))
      rw [hledger]
      exact ⟨hawait.cards, hawait.live⟩
    have hon : rt'.ledger.Recovering ptr := by
      rw [hledger, Ledger.Recovering, Ledger.setRecovery, Ledger.awaitRecovery, Ledger.modifyCard,
        Ledger.cards_setCard]
      exact hguard.numbered
    have hstill : rt'.ledger.Live ptr := by
      rw [hledger]
      exact hptr
    refine ⟨.popped (by simp [pops, hpick]) rfl rfl hstorage hroom (congrArg Ledger.recovery hledger) ?_, ?_⟩
    · refine halters.card_census_begin ?_ ?_
      · exact fun hmem ↦ hidle (Ledger.mem_recoveringActors.1 hmem).2
      · exact Ledger.mem_recoveringActors.2 ⟨hstill, hon⟩
    · intro other hother
      by_cases heq : other = ptr
      · rw [heq]
        exact hstill
      · rw [Ledger.Recovering, halters.cards other heq] at hother
        exact (halters.live other heq).2 (hlive other hother)

include hsound hlive hguard in
theorem step_round (hstep : rt.step input = some rt') : rt.RoundStep input rt' ∧ rt'.WaitersLive := by
  have hstill : (∀ env, input ≠ .recoveryIteration env) → (∀ runtimeId, input ≠ .recover runtimeId) →
      (∀ env senderRtid message, input ≠ .message env senderRtid message) →
      (∀ env ptr kind, input ≠ .fire env ptr kind) → rt.RoundStep input rt' ∧ rt'.WaitersLive := by
    intro hiteration hrecover hmessage hfire
    have hnone : ∀ ptr, ¬rt.ledger.Answers input ptr .replication := by
      intro ptr hanswers
      generalize TimerKind.replication = kind at hanswers
      cases hanswers with
      | timeout env ptr kind => exact hfire env ptr kind rfl
      | response env senderRtid message => exact hmessage env senderRtid message rfl
    obtain ⟨hrecovery, hcount, hlive'⟩ := still_of_effect hsound hlive hguard hstep hiteration hrecover hnone
    refine ⟨.still _ ?_ ?_ ?_ hrecovery hcount (.inl rfl), hlive'⟩ <;> cases input <;>
      simp_all [pops, recoveryAnswer, beginsRound]
  cases hinput : input with
  | message => exact hinput ▸ message_round hsound hlive hguard hinput hstep
  | fire => exact hinput ▸ fire_round hsound hlive hguard hinput hstep
  | recoveryIteration => exact hinput ▸ recoveryIteration_round hlive hguard hinput hstep
  | recover runtimeId =>
    rw [hinput] at hstep
    rw [← Option.some.inj hstep, recover]
    by_cases hidle : rt.recovery.storageRtid = 0
    · rw [if_pos hidle]
      exact ⟨.begun runtimeId (by simp [beginsRound, hidle]) hidle rfl rfl, hlive⟩
    · rw [if_neg hidle]
      exact ⟨.still _ rfl rfl (by simp [beginsRound, hidle]) rfl rfl (.inl rfl), hlive⟩
  | _ => exact hinput ▸ hstill (by simp [hinput]) (by simp [hinput]) (by simp [hinput]) (by simp [hinput])

end Steps

/-- Only `coordinator_mp` makes an actor wait. -/
theorem recovering_of_step (hsound : rt.ledger.Sound) (hstep : rt.step input = some rt')
    (hwaits : rt'.ledger.Recovering ptr) :
    rt.ledger.Recovering ptr ∨ (∃ env, input = .recoveryIteration env) ∧ rt.recoveryPick = some ptr := by
  have hothers : ∀ other, rt.ledger.Alters rt'.ledger other → ptr ≠ other → rt.ledger.Recovering ptr := by
    intro other halters hne
    rw [Ledger.Recovering, halters.cards ptr hne] at hwaits
    exact hwaits
  have hended : ∀ other succeeded, rt'.ledger = rt.ledger.endRecovery other succeeded →
      rt.ledger.Recovering ptr := by
    intro other succeeded hledger
    refine hothers other (hledger ▸ .of_touches (.endRecovery rt.ledger other succeeded)) ?_
    rintro rfl
    exact not_recovering_endRecovery hledger hwaits
  have heffect := (step_effect hsound.blank input hstep).recovery hsound
  cases heffect with
  | aside _ htimer =>
    rw [Ledger.Recovering, htimer] at hwaits
    exact .inl hwaits
  | dismiss other _ _ halters _ _ hoff =>
    refine .inl (hothers other halters ?_)
    rintro rfl
    exact hoff hwaits
  | coordinator hinput =>
    rcases hinput with ⟨env, rfl⟩ | ⟨runtimeId, rfl⟩
    · rcases recoveryIteration_cases hstep with ⟨-, rfl | ⟨-, rfl⟩⟩ | ⟨other, hpick, -, -, -, hledger⟩
      · exact .inl hwaits
      · exact .inl hwaits
      · by_cases heq : ptr = other
        · exact .inr ⟨⟨env, rfl⟩, heq ▸ hpick⟩
        · rw [hledger, Ledger.Recovering] at hwaits
          have hcard : ((rt.ledger.unlink other).awaitRecovery other rt.nextMsgId).cards ptr =
              rt.ledger.cards ptr := update_of_ne heq _ _
          rw [Ledger.setRecovery, hcard] at hwaits
          exact .inl hwaits
    · rw [← Option.some.inj hstep, recover] at hwaits
      split at hwaits <;> exact .inl hwaits
  | answered other hanswers =>
    left
    cases input with
    | message =>
      obtain ⟨outcome, hanswer⟩ := recoveryAnswer_of_answers hanswers
      obtain ⟨other', -, hledger⟩ := recoveryAnswer_spec hstep hanswer
      exact hended other' true hledger
    | fire =>
      obtain ⟨rfl, hledger | hledger⟩ := trigger_recovery hanswers hstep
      · by_cases heq : ptr = other
        · rw [heq]
          exact Ledger.armed_of_answers hsound (by exact trivial) hanswers
        · exact hothers other (hledger ▸ .of_touches (.awaitRecovery rt.ledger other rt.nextMsgId)) heq
      · exact hended other false hledger
    | _ => cases hanswers

end Runtime

/-! ## Rounds of recovery -/

/-- A runtime with two counts over the round: replicas popped, and answers that reported a changed route. -/
structure RecoveryRun (σ τ : Type) where
  rt : Runtime σ τ
  popped : ℕ
  changed : ℕ

namespace RecoveryRun

open NfvActor.Actor.Runtime (waiters step_round smallBoot init_smallBoot connected tcpPacket)

variable {σ τ : Type} {run run' : RecoveryRun σ τ} {input : Input σ}

def step (run : RecoveryRun σ τ) (input : Input σ) : Option (RecoveryRun σ τ) :=
  (run.rt.step input).map fun rt' ↦
    if run.rt.beginsRound input then ⟨rt', 0, 0⟩
    else
      { rt := rt'
        popped := run.popped + run.rt.pops input
        changed := run.changed + if run.rt.recoveryAnswer input = some 0 then 1 else 0 }

def system (σ τ : Type) : TransitionSystem (RecoveryRun σ τ) (Input σ) where
  init run := (Runtime.system σ τ).init run.rt ∧ run.popped = 0 ∧ run.changed = 0
  step := step

/-- `out_going_recovery_` counts the live actors that wait. Every popped replica is in one of the three counters
of the round, as far as their 64 bits go, and `successful_recovery_` counts the reported changes. A round with
an empty list and nobody waiting ends at the next iteration. -/
structure RecoveriesAccounted (run : RecoveryRun σ τ) : Prop where
  outgoing : run.rt.recovery.outGoing.toNat = (run.rt.allocator.outstanding.filter fun ptr ↦
    (run.rt.actors ptr).replicationTimer.Armed).card
  counted : run.rt.recovery.outGoing + run.rt.recovery.successful + run.rt.recovery.unsuccessful =
    UInt64.ofNat run.popped
  changed : run.rt.recovery.successful = UInt64.ofNat run.changed
  ends : ∀ env head, run.rt.replicaFlowLists run.rt.recovery.storageRtid = some head →
    run.rt.links.peekFirst (.replicaFlows head) = none →
    (∀ ptr, run.rt.Allocated ptr → ¬(run.rt.actors ptr).replicationTimer.Armed) →
    ∃ rt', run.rt.step (.recoveryIteration env) = some rt' ∧ rt'.recovery.storageRtid = 0

/-- What every step keeps. -/
structure Kept (run : RecoveryRun σ τ) : Prop where
  sound : run.rt.ledger.Sound
  live : run.rt.WaitersLive
  outgoing : run.rt.recovery.outGoing.toNat = run.rt.waiters
  resting : run.rt.recovery.storageRtid = 0 → run.rt.recovery.outGoing = 0
  counted : run.rt.recovery.outGoing + run.rt.recovery.successful + run.rt.recovery.unsuccessful =
    UInt64.ofNat run.popped
  changed : run.rt.recovery.successful = UInt64.ofNat run.changed

theorem Kept.init (h : (system σ τ).init run) : run.Kept := by
  obtain ⟨⟨config, serviceChain, code, zero, sharedState, hboot⟩, hpopped, hchanged⟩ := h
  have hblank := Runtime.blank_boot config serviceChain code zero sharedState
  have hidle : ∀ ptr, ¬run.rt.ledger.Recovering ptr := by
    intro ptr
    rw [hboot]
    exact (hblank ptr).timers .replication
  refine ⟨?_, fun ptr hwaits ↦ absurd hwaits (hidle ptr), ?_, ?_, ?_, ?_⟩
  · rw [hboot]
    exact Runtime.sound_boot config serviceChain code zero sharedState
  · have hnone : run.rt.ledger.recoveringActors = ∅ := by
      apply Finset.eq_empty_of_forall_notMem
      exact fun ptr hmem ↦ hidle ptr (Ledger.mem_recoveringActors.1 hmem).2
    rw [waiters, hnone, hboot]
    rfl
  · rw [hboot]
    exact fun _ ↦ rfl
  · rw [hboot, hpopped]
    rfl
  · rw [hboot, hchanged]
    rfl

theorem step_cases (h : run.step input = some run') : run.rt.step input = some run'.rt ∧
    (run.rt.beginsRound input = true ∧ run'.popped = 0 ∧ run'.changed = 0 ∨
      run.rt.beginsRound input = false ∧ run'.popped = run.popped + run.rt.pops input ∧
        run'.changed = run.changed + if run.rt.recoveryAnswer input = some 0 then 1 else 0) := by
  obtain ⟨rt', hrt, rfl⟩ := map_eq_some_iff.1 h
  cases hbegins : run.rt.beginsRound input
  · exact ⟨hrt, .inr ⟨rfl, rfl, rfl⟩⟩
  · exact ⟨hrt, .inl ⟨rfl, rfl, rfl⟩⟩

theorem Kept.next (h : run.Kept) (hguard : run.rt.KeepsRecoveries input)
    (hstep : run.step input = some run') : run'.Kept := by
  obtain ⟨hrt, hghost⟩ := step_cases hstep
  have hsound := h.sound.effect (Runtime.step_effect h.sound.blank input hrt)
  obtain ⟨hround, hlive⟩ := step_round h.sound h.live hguard hrt
  have houtgoing := h.outgoing
  have hcounted := h.counted
  have hchanged := h.changed
  cases hround with
  | still storageRtid hpops hanswer hbegins hrecovery hwaiters hstorage =>
    simp only [hbegins, hpops, hanswer, reduceCtorEq, false_and, false_or, true_and, if_false,
      Nat.add_zero] at hghost
    refine ⟨hsound, hlive, ?_, ?_, ?_, ?_⟩ <;> rw [hrecovery]
    · rw [houtgoing, hwaiters]
    · exact fun hzero ↦ hstorage.elim (fun hsame ↦ h.resting (hsame ▸ hzero)) id
    · rw [hcounted, hghost.1]
    · rw [hchanged, hghost.2]
  | popped hpops hanswer hbegins hstorage hroom hrecovery hwaiters =>
    have hsmall : run.rt.recovery.outGoing.toNat ≤ 128 := UInt64.le_iff_toNat_le.1 hroom
    simp only [hbegins, hpops, hanswer, reduceCtorEq, false_and, false_or, true_and, if_false,
      Nat.add_zero] at hghost
    refine ⟨hsound, hlive, ?_, ?_, ?_, ?_⟩ <;> rw [hrecovery]
    · rw [toNat_succ (by omega), houtgoing, hwaiters]
    · exact fun hzero ↦ absurd hzero hstorage
    · rw [hghost.1, UInt64.ofNat_add, ← hcounted]
      grind
    · rw [hchanged, hghost.2]
  | finished succeeded hpops hanswer hbegins hrecovery =>
    have hne : run.rt.recovery.outGoing ≠ 0 := by
      intro hzero
      rw [hzero] at houtgoing
      exact absurd houtgoing (by simp; omega)
    have hpred := toNat_pred hne
    simp only [hbegins, hpops, hanswer, reduceCtorEq, false_and, false_or, true_and, Nat.add_zero] at hghost
    refine ⟨hsound, hlive, ?_, ?_, ?_, ?_⟩ <;> rw [hrecovery]
    · dsimp only
      omega
    · exact fun hzero ↦ absurd (h.resting hzero) hne
    · rw [hghost.1, ← hcounted]
      cases succeeded <;> grind
    · rw [hghost.2]
      cases succeeded
      · exact hchanged
      · exact (congrArg (· + 1) hchanged).trans (UInt64.ofNat_add _ 1).symm
  | begun _ hbegins hstorage hrecovery hwaiters =>
    have hnobody := h.resting hstorage
    simp only [hbegins, reduceCtorEq, false_and, or_false, true_and] at hghost
    refine ⟨hsound, hlive, ?_, ?_, ?_, ?_⟩ <;> rw [hrecovery]
    · rw [houtgoing, hwaiters]
    · exact fun _ ↦ hnobody
    · rw [hghost.1, hnobody]
      rfl
    · rw [hghost.2]
      rfl

theorem recoveries_accounted
    (hreach : (system σ τ).Reachable (fun run input ↦ run.rt.KeepsRecoveries input) run) :
    run.RecoveriesAccounted := by
  have hkept : run.Kept := hreach.invariant (fun _ hinit ↦ .init hinit)
    fun _ _ _ hkept hguard hstep ↦ hkept.next hguard hstep
  have hset : (run.rt.allocator.outstanding.filter fun ptr ↦
      (run.rt.actors ptr).replicationTimer.Armed) = run.rt.ledger.recoveringActors := by
    ext ptr
    rw [Finset.mem_filter, Ledger.mem_recoveringActors]
    exact Iff.rfl
  refine ⟨?_, hkept.counted, hkept.changed, ?_⟩
  · rw [hset]
    exact hkept.outgoing
  · intro env head hhead hempty hidle
    have hnobody : run.rt.recovery.outGoing = 0 := by
      apply UInt64.toNat_inj.1
      rw [hkept.outgoing, waiters, Finset.card_eq_zero.2]
      · rfl
      · apply Finset.eq_empty_of_forall_notMem
        intro ptr hmem
        obtain ⟨hlive, hwaits⟩ := Ledger.mem_recoveringActors.1 hmem
        exact hidle ptr hlive hwaits
    by_cases hstorage : run.rt.recovery.storageRtid = 0
    · refine ⟨run.rt, ?_, hstorage⟩
      rw [Runtime.step, Runtime.recoveryIteration, if_pos (.inl hstorage)]
    · have hround : ¬(run.rt.recovery.storageRtid = 0 ∨ run.rt.recovery.outGoing > 128) := by
        rw [hnobody]
        exact not_or.2 ⟨hstorage, by decide⟩
      refine ⟨{ run.rt with recovery := { run.rt.recovery with storageRtid := 0 } }, ?_, rfl⟩
      rw [Runtime.step, Runtime.recoveryIteration, if_neg hround, hhead, Option.bind_some,
        Runtime.peekHead, hempty, Option.bind_some]
      exact congrArg some (if_pos hnobody)

/-- Runtime `2` replicates the packet of a flow. -/
def replicate : Input Unit :=
  .message connected 2 ⟨5, coordinatorActorId, 9, .replication FlowActor.blankHeader
    FlowActor.blankHeader (flowKeyOf (tcpPacket 7)) (fun _ ↦ ()) (tcpPacket 7)⟩

/-- Runtime `2` has failed, and its replica asks for the route. -/
def recoverReplica : List (Input Unit) :=
  [.addStorage 2, replicate, .recover 2, .recoveryIteration connected]

/-- The answer to the first request of the replica, with this outcome. -/
def routeAnswer (changeRouteSucceed : UInt32) : Input Unit :=
  .message connected 3 ⟨coordinatorActorId, 3, 12, .replicaRecoverResponse messageIdStart changeRouteSucceed⟩

def firstRun : RecoveryRun Unit Unit := ⟨smallBoot [], 0, 0⟩

theorem init_firstRun : (system Unit Unit).init firstRun := ⟨init_smallBoot [], rfl, rfl⟩

/-- Steps that neither concern a list of replicas nor carry a response. -/
theorem keeps_of_aside {rt : Runtime Unit Unit} {input : Input Unit} (hnumbered : rt.nextMsgId ≠ 0)
    (hinput : input = .addStorage 2 ∨ input = replicate ∨ input = .recover 2) : rt.KeepsRecoveries input := by
  rcases hinput with rfl | rfl | rfl
  · exact ⟨trivial, by simp [Runtime.recoveryAnswer], hnumbered, by simp, by simp, by simp⟩
  · refine ⟨?_, ?_, hnumbered, by simp [replicate], by simp [replicate], ?_⟩
    · exact fun kind id hrequest ↦ absurd hrequest (by simp [MessageBody.request])
    · simp [Runtime.recoveryAnswer, replicate]
    · intro env senderRtid message ptr hinput hdelivers
      injection hinput with _ _ hmessage
      exact absurd (congrArg Message.recvActorId hmessage).symm hdelivers.1
  · exact ⟨trivial, by simp [Runtime.recoveryAnswer], hnumbered, by simp, by simp, by simp⟩

theorem recoveries_accounted_oneWaits : ∃ run : RecoveryRun Unit Unit,
    (system Unit Unit).run firstRun recoverReplica = some run ∧ run.rt.recovery.outGoing = 1 ∧
      run.RecoveriesAccounted := by
  obtain ⟨stored, hstored, hids, replica, hreplica, hids', round, hround, hids'', hpick, hentry, run, hpop,
      houtgoing⟩ :
      ∃ stored ∈ (system Unit Unit).step firstRun (.addStorage 2), stored.rt.nextMsgId = messageIdStart ∧
      ∃ replica ∈ (system Unit Unit).step stored replicate, replica.rt.nextMsgId = messageIdStart ∧
      ∃ round ∈ (system Unit Unit).step replica (.recover 2), round.rt.nextMsgId = messageIdStart ∧
        round.rt.recoveryPick = some 1 ∧ round.rt.actoridHtable 3 = some 1 ∧
      ∃ run ∈ (system Unit Unit).step round (.recoveryIteration connected), run.rt.recovery.outGoing = 1 := by
    decide +kernel
  have hreach : (system Unit Unit).Reachable (fun run input ↦ run.rt.KeepsRecoveries input) round := by
    refine .next (.recover 2) (.next replicate (.next (.addStorage 2) (.start init_firstRun) ?_ hstored)
      ?_ hreplica) ?_ hround
    · exact keeps_of_aside (by decide) (.inl rfl)
    · exact keeps_of_aside (by rw [hids]; decide) (.inr (.inl rfl))
    · exact keeps_of_aside (by rw [hids']; decide) (.inr (.inr rfl))
  have hkept : round.Kept := hreach.invariant (fun _ hinit ↦ .init hinit)
    fun _ _ _ hkept hguard hstep ↦ hkept.next hguard hstep
  have hguard : round.rt.KeepsRecoveries (.recoveryIteration connected) := by
    refine ⟨trivial, by simp [Runtime.recoveryAnswer], by rw [hids'']; decide, ?_, by simp, by simp⟩
    intro env ptr _ hptr
    rw [hpick, Option.some.injEq] at hptr
    exact hptr ▸ hkept.sound.id_live 3 1 hentry
  refine ⟨run, ?_, houtgoing, recoveries_accounted (.next _ hreach hguard hpop)⟩
  rw [Option.mem_def] at hstored hreplica hround hpop
  simp only [recoverReplica, TransitionSystem.run, hstored, hreplica, hround, hpop, Option.bind_some]

/-- As long as `coordinator_mp` pops no other replica, nobody else waits. -/
theorem waits_only {ptr : ℕ} (inputs : List (Input Unit)) {run run' : RecoveryRun Unit Unit}
    (hsound : run.rt.ledger.Sound) (honly : ∀ other, run.rt.ledger.Recovering other → other = ptr)
    (hinputs : ∀ input ∈ inputs, ∀ env, input ≠ .recoveryIteration env)
    (hrun : (system Unit Unit).run run inputs = some run') :
    run'.rt.ledger.Sound ∧ ∀ other, run'.rt.ledger.Recovering other → other = ptr := by
  induction inputs generalizing run with
  | nil =>
    cases hrun
    exact ⟨hsound, honly⟩
  | cons input _ ih =>
    obtain ⟨mid, hmid, hrest⟩ := bind_eq_some_iff.1 hrun
    have hrt := (step_cases hmid).1
    refine ih (hsound.effect (Runtime.step_effect hsound.blank input hrt)) ?_
      (fun later hlater ↦ hinputs later (List.mem_cons_of_mem _ hlater)) hrest
    intro other hwaits
    rcases Runtime.recovering_of_step hsound hrt hwaits with hbefore | ⟨⟨env, hinput⟩, -⟩
    · exact honly other hbefore
    · exact absurd hinput (hinputs input List.mem_cons_self env)

/-- The idle check removes a replica that waits, and the round never ends: its list is empty, nobody waits, and
`out_going_recovery_` is one. In another run the answer that the route has not changed counts as a success. -/
theorem recovery_uncounted : (∃ run : RecoveryRun Unit Unit,
    (system Unit Unit).Reachable TransitionSystem.anyStep run ∧ run.rt.recovery.storageRtid = 2 ∧
      run.rt.recovery.outGoing = 1 ∧
      (run.rt.step (.recoveryIteration connected)).map (fun rt ↦ rt.recovery.storageRtid) = some 2 ∧
      ¬run.RecoveriesAccounted) ∧
    ∃ run : RecoveryRun Unit Unit, (system Unit Unit).Reachable TransitionSystem.anyStep run ∧
      run.rt.recovery.successful = 1 ∧ run.changed = 0 ∧ ¬run.RecoveriesAccounted := by
  constructor
  · obtain ⟨round, hround, hpick, waiting, hpop, run, hgone, hoff, hstorage, houtgoing, hnext⟩ :
        ∃ round ∈ (system Unit Unit).run firstRun [.addStorage 2, replicate, .recover 2],
          round.rt.recoveryPick = some 1 ∧
        ∃ waiting ∈ (system Unit Unit).step round (.recoveryIteration connected),
        ∃ run ∈ (system Unit Unit).run waiting [.fire connected 1 .idle, .fire connected 1 .idle],
          (run.rt.actors 1).replicationTimer.requestMsgId = invalidMessageId ∧
          run.rt.recovery.storageRtid = 2 ∧ run.rt.recovery.outGoing = 1 ∧
          (run.rt.step (.recoveryIteration connected)).map (fun rt ↦ rt.recovery.storageRtid) = some 2 := by
      decide +kernel
    have hkept : firstRun.Kept := .init init_firstRun
    have hnobody : ∀ ptr, firstRun.rt.ledger.Recovering ptr → ptr = 1 := fun ptr hwaits ↦
      absurd hwaits ((Runtime.blank_boot _ _ _ _ _ ptr).timers .replication)
    obtain ⟨hsound, honly⟩ := waits_only _ hkept.sound hnobody (by simp [replicate]) hround
    have hrt := (step_cases hpop).1
    have honly' : ∀ other, waiting.rt.ledger.Recovering other → other = 1 := by
      intro other hwaits
      rcases Runtime.recovering_of_step hsound hrt hwaits with hbefore | ⟨-, hother⟩
      · exact honly other hbefore
      · rw [hpick, Option.some.injEq] at hother
        exact hother.symm
    obtain ⟨-, hlast⟩ := waits_only _ (hsound.effect (Runtime.step_effect hsound.blank _ hrt)) honly'
      (by simp) hgone
    have hreach : (system Unit Unit).Reachable TransitionSystem.anyStep run :=
      TransitionSystem.reachable_run _ (.next _ (.replay init_firstRun hround) trivial hpop)
        (fun _ _ _ ↦ trivial) hgone
    refine ⟨run, hreach, hstorage, houtgoing, hnext, fun haccounted ↦ ?_⟩
    have hcount := haccounted.outgoing
    rw [houtgoing, Finset.filter_eq_empty_iff.2] at hcount
    · exact absurd hcount (by decide)
    · intro ptr _ hwaits
      rw [hlast ptr hwaits] at hwaits
      exact hwaits hoff
  · obtain ⟨run, hsteps, hsuccessful, hchanged⟩ :
        ∃ run ∈ (system Unit Unit).run firstRun (recoverReplica ++ [routeAnswer 1]),
          run.rt.recovery.successful = 1 ∧ run.changed = 0 := by decide +kernel
    refine ⟨run, .replay init_firstRun hsteps, hsuccessful, hchanged, fun haccounted ↦ ?_⟩
    have hcount := haccounted.changed
    rw [hsuccessful, hchanged] at hcount
    exact absurd hcount (by decide)

end RecoveryRun

end NfvActor.Actor
