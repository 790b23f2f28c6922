import Mathlib.Tactic
import NfvActor.Actor.Changes

/-!
# Packets when the pool of actors is exhausted

A live actor other than the deadend actor has been initialised, and its idle timer is armed until it is removed.
The deadend actor never is: the packets that end up with it, of flows that found no free actor, are those that
dereference an unset pointer.
-/

namespace NfvActor.Actor

open NfvActor.Foundation
open NfvActor.Actor.Runtime (deadendFlowActor)
open NfvActor.Reliable (Packet)
open Function

namespace Ledger

variable {σ : Type} {ledger ledger' : Ledger} {ptr : ℕ}

/-- Every actor in use, except the deadend actor, has an armed idle timer. -/
def IdleArmed (ledger : Ledger) : Prop :=
  ∀ ptr, ledger.Live ptr → ptr ≠ deadendFlowActor → (ledger.cards ptr).idleTimer.Armed

theorem armed_idle : (⟨idleMessageId, .checkIdle⟩ : ActorTimer).Armed := by decide

namespace IdleArmed

theorem effect (h : ledger.IdleArmed) (hsound : ledger.Sound) {input : Input σ}
    (heffect : ledger.Effect input ledger') : ledger'.IdleArmed := by
  intro ptr hlive hptr
  rcases heffect.turn_or_admitted hsound hlive with ⟨hold, hturn⟩ | ⟨_, _, _, hadmitted⟩
  · generalize ledger'.cards ptr = card at hturn
    cases hturn with
    | idleAgain => exact armed_idle
    | _ => exact h ptr hold hptr
  · rw [hadmitted.card]
    exact armed_idle

end IdleArmed

end Ledger

namespace Runtime

variable {σ τ : Type}

/-- An init message has reached the actor since it was handed out. -/
def Initialised (rt : Runtime σ τ) (ptr : ℕ) : Prop :=
  (rt.actors ptr).coordinatorSet = true ∧ (rt.actors ptr).idleTimer.Armed

variable {rt : Runtime σ τ} {ptr : ℕ}

theorem idleArmed_of_reachable {guard : Runtime σ τ → Input σ → Prop}
    (hreach : (system σ τ).Reachable guard rt) : rt.ledger.IdleArmed := by
  refine ledger_invariant hreach ?_ ?_
  · intro config serviceChain code zero sharedState ptr hlive hptr
    exact absurd (live_boot hlive) hptr
  · intro rt input ledger' hsound harmed _ heffect
    exact harmed.effect hsound heffect

/-- A packet finds the actor of its flow, or a free one. -/
def PacketServed (rt : Runtime σ τ) (pkt : Packet) : Prop :=
  rt.htable (flowKeyOf pkt) ≠ some deadendFlowActor ∧
    (rt.htable (flowKeyOf pkt) = none → rt.allocator.pop ≠ none)

theorem not_initialised_deadend (hblank : rt.ledger.DeadendBlank) : ¬rt.Initialised deadendFlowActor := by
  rintro ⟨hset, -⟩
  exact absurd (hset.symm.trans hblank.coordinator) (by decide)

theorem initialised_of_init {mid : Runtime σ τ} {env : Environment σ} {key : FlowKey} {pkt : Packet}
    (h : rt.flowActorInitWithPkt env ptr key pkt = some mid) : mid.Initialised ptr := by
  have hinit {replication : ReplicationState} {r : Option UInt32} {inputHeader outputHeader : EtherHeader}
      (h : rt.initFlow ptr key .normalProcessing replication r inputHeader outputHeader true = some mid) :
      mid.Initialised ptr := by
    obtain ⟨-, rfl⟩ := addTimer_spec h
    rw [Initialised, actors_modifyActor, actors_modifyActor]
    exact ⟨rfl, Ledger.armed_idle⟩
  obtain ⟨inputRt, -, h⟩ := Option.bind_eq_some_iff.1 h
  dsimp only at h
  split at h
  · exact hinit h
  · split at h
    · exact hinit h
    · cases h

/-- In every reachable state a packet reaches an initialised actor if and only if it does not end up with the
deadend actor; otherwise it dereferences an unset pointer. -/
theorem packet_reaches_initialised_iff {guard : Runtime σ τ → Input σ → Prop} {rt : Runtime σ τ}
    (hreach : (system σ τ).Reachable guard rt) (env : Environment σ) (pkt : Packet) :
    ((∀ ptr mid, rt.receiver env pkt = some (ptr, mid) → mid.Initialised ptr) ↔ rt.PacketServed pkt) ∧
      (¬rt.PacketServed pkt → rt.step (.packet env pkt) = none) := by
  have hsound := sound_of_reachable hreach
  have hidle := idleArmed_of_reachable hreach
  have hdeadend : ¬rt.PacketServed pkt → ∃ mid, rt.receiver env pkt = some (deadendFlowActor, mid) ∧
      mid.ledger.DeadendBlank := by
    intro hnot
    unfold receiver
    dsimp only
    split
    · next found hfound =>
      have heq : found = deadendFlowActor := by
        by_contra hne
        refine hnot ⟨?_, fun hnone ↦ ?_⟩
        · rw [hfound]
          exact fun hsome ↦ hne (Option.some.inj hsome)
        · cases hfound.symm.trans hnone
      exact ⟨rt, by rw [heq], hsound.blank⟩
    · next hnone =>
      have hempty : rt.allocator.pop = none := by
        by_contra hfree
        exact hnot ⟨by rw [hnone]; simp, fun _ ↦ hfree⟩
      have hallocate : rt.allocate = none := by rw [allocate, hempty]; rfl
      rw [hallocate]
      exact ⟨_, rfl, hsound.blank⟩
  refine ⟨⟨fun hall ↦ ?_, fun hserved ptr mid hreceiver ↦ ?_⟩, fun hnot ↦ ?_⟩
  · by_contra hnot
    obtain ⟨mid, hmid, hblank⟩ := hdeadend hnot
    exact not_initialised_deadend hblank (hall _ mid hmid)
  · unfold receiver at hreceiver
    dsimp only at hreceiver
    split at hreceiver
    · next found hfound =>
      simp only [Option.some.injEq, Prod.mk.injEq] at hreceiver
      obtain ⟨rfl, rfl⟩ := hreceiver
      have hptr : found ≠ deadendFlowActor := by
        rintro rfl
        exact hserved.1 hfound
      have hlive := hsound.flow_live _ found hfound
      exact ⟨hsound.initialised found hlive hptr, hidle found hlive hptr⟩
    · next hnone =>
      split at hreceiver
      · next hallocate => exact absurd (allocate_eq_none hallocate) (hserved.2 hnone)
      · obtain ⟨started, hstarted, heq⟩ := Option.map_eq_some_iff.1 hreceiver
        simp only [Prod.mk.injEq] at heq
        obtain ⟨rfl, rfl⟩ := heq
        have hinitialised := initialised_of_init hstarted
        exact hinitialised
  · obtain ⟨mid, hmid, hblank⟩ := hdeadend hnot
    change rt.schedule env pkt = none
    rw [schedule_eq, hmid]
    exact pktMsg_deadend hblank env pkt

theorem packet_reaches_initialised_firstPacket : (smallBoot []).PacketServed (tcpPacket 5) ∧
    ∀ ptr mid, (smallBoot []).receiver connected (tcpPacket 5) = some (ptr, mid) → mid.Initialised ptr := by
  have hreach : (system Unit Unit).Reachable TransitionSystem.anyStep (smallBoot []) :=
    .start (init_smallBoot [])
  have hserved : (smallBoot []).PacketServed (tcpPacket 5) := by
    refine ⟨by simp [smallBoot, boot], fun _ hnone ↦ ?_⟩
    rw [RingBuffer.pop_eq_none_iff, ← List.length_eq_zero_iff, RingBuffer.length_contents] at hnone
    exact absurd hnone (by decide)
  exact ⟨hserved, (packet_reaches_initialised_iff hreach connected (tcpPacket 5)).1.2 hserved⟩

/-! ## A run that exhausts the pool -/

/-- `create_migration_target_actor_t` for the flow key without bytes. -/
def targetRequest : Input Unit :=
  .message connected 2 ⟨7, coordinatorActorId, 9,
    .createMigrationTargetActor FlowActor.blankHeader FlowActor.blankHeader []⟩

theorem addTimer_isSome {kind : TimerKind} (requestMsgId : UInt32) (msgType : TimerMessage)
    (hidle : ¬((rt.actors ptr).timer kind).Armed) : (rt.addTimer ptr kind requestMsgId msgType).isSome := by
  rw [addTimer, if_pos (not_not.1 hidle)]
  rfl

theorem flowActorInitWithCstruct_isSome (key : FlowKey) (inputHeader outputHeader : EtherHeader)
    (hidle : ¬(rt.actors ptr).idleTimer.Armed) :
    (rt.flowActorInitWithCstruct ptr key inputHeader outputHeader).isSome := by
  refine addTimer_isSome idleMessageId .checkIdle ?_
  rw [actors_modifyActor]
  exact hidle

/-- As long as an actor is free, the request is served. -/
theorem step_targetRequest {rt : Runtime Unit Unit} (hsound : rt.ledger.Sound)
    (hfree : rt.allocator.pop ≠ none) : ∃ rt', rt.step targetRequest = some rt' := by
  have hsome : rt.allocate ≠ none := fun hnone ↦ hfree (allocate_eq_none hnone)
  obtain ⟨⟨ptr, base⟩, hallocate⟩ := Option.ne_none_iff_exists'.1 hsome
  obtain ⟨ring, hpop, hoccupied⟩ := allocate_spec hallocate
  have hidle : ¬((base.addTail .activeFlows ptr).actors ptr).idleTimer.Armed := by
    change ¬(base.actors ptr).idleTimer.Armed
    rw [hoccupied, actors_modifyActor]
    exact fun harmed ↦ (hsound.pool.pop hpop).2.1 (hsound.idle_live ptr harmed)
  obtain ⟨started, hstarted⟩ := Option.isSome_iff_exists.1
    (flowActorInitWithCstruct_isSome [] FlowActor.blankHeader FlowActor.blankHeader hidle)
  change ∃ rt', rt.createMigrationTargetActor connected 2 7 9 FlowActor.blankHeader FlowActor.blankHeader
    [] = some rt'
  rw [createMigrationTargetActor, hallocate]
  dsimp only
  rw [hstarted]
  exact ⟨_, rfl⟩

/-- The request takes one actor and binds no other flow. -/
theorem targetRequest_spec {rt rt' : Runtime Unit Unit} (hfree : rt.allocator.pop ≠ none)
    (h : rt.step targetRequest = some rt') :
    rt'.allocator.contents.length + 1 = rt.allocator.contents.length ∧
      ∀ key, key ≠ [] → rt'.htable key = rt.htable key := by
  change rt.createMigrationTargetActor connected 2 7 9 FlowActor.blankHeader FlowActor.blankHeader [] =
    some rt' at h
  unfold createMigrationTargetActor at h
  split at h
  · next hnone => exact absurd (allocate_eq_none hnone) hfree
  · next ptr base hallocate =>
    obtain ⟨ring, hpop, rfl⟩ := allocate_spec hallocate
    obtain ⟨started, hstarted, h⟩ := Option.bind_eq_some_iff.1 h
    obtain ⟨sent, hsent, rfl⟩ := Option.map_eq_some_iff.1 h
    have hledger : sent.2.ledger = rt.ledger.enroll ptr ring .activeFlows [] .migrationTarget .noReplica := by
      have hbound := (bind_initFlow (rt.targetOpening ptr ring _ FlowActor.blankHeader FlowActor.blankHeader [])
        hstarted).2
      rw [(sendMessage_spec hsent).1, ledger_post, show started.bind [] ptr = _ from hbound, ledger_opened]
      rfl
    constructor
    · change sent.2.ledger.allocator.contents.length + 1 = rt.allocator.contents.length
      rw [hledger, (RingBuffer.contents_pop hpop).1]
      rfl
    · intro key hkey
      change sent.2.ledger.htable key = rt.htable key
      rw [hledger]
      exact update_of_ne hkey _ _

/-- The requests go on until no actor is left. -/
theorem reachable_exhausted (free : ℕ) {rt : Runtime Unit Unit}
    (hreach : (system Unit Unit).Reachable TransitionSystem.anyStep rt)
    (hsize : rt.allocator.contents.length = free) (hnew : ∀ key, key ≠ [] → rt.htable key = none) :
    ∃ rt', (system Unit Unit).Reachable TransitionSystem.anyStep rt' ∧ rt'.allocator.pop = none ∧
      ∀ key, key ≠ [] → rt'.htable key = none := by
  induction free generalizing rt with
  | zero =>
    refine ⟨rt, hreach, ?_, hnew⟩
    rw [RingBuffer.pop_eq_none_iff]
    exact List.length_eq_zero_iff.1 hsize
  | succ _ ih =>
    have hfree : rt.allocator.pop ≠ none := by
      rw [ne_eq, RingBuffer.pop_eq_none_iff, ← List.length_eq_zero_iff]
      omega
    obtain ⟨rt', hstep⟩ := step_targetRequest (sound_of_reachable hreach) hfree
    obtain ⟨hless, hsame⟩ := targetRequest_spec hfree hstep
    refine ih (.next targetRequest hreach trivial hstep) (by omega) fun key hkey ↦ ?_
    rw [hsame key hkey, hnew key hkey]

/-- With all actors in use, the first packet of a new flow dereferences an unset pointer. -/
theorem packet_reaches_deadend_when_exhausted : ∃ rt : Runtime Unit Unit,
    (system Unit Unit).Reachable TransitionSystem.anyStep rt ∧
      (∃ mid, rt.receiver connected (tcpPacket 5) = some (deadendFlowActor, mid) ∧
        ¬mid.Initialised deadendFlowActor) ∧
      rt.step (.packet connected (tcpPacket 5)) = none := by
  obtain ⟨rt, hreach, hempty, hnew⟩ := reachable_exhausted _ (.start (init_smallBoot [])) rfl
    fun _ _ ↦ rfl
  have hnone : rt.htable (flowKeyOf (tcpPacket 5)) = none := hnew _ (by decide)
  have hallocate : rt.allocate = none := by
    rw [allocate, hempty]
    rfl
  have hreceiver : rt.receiver connected (tcpPacket 5) =
      some (deadendFlowActor, rt.bind (flowKeyOf (tcpPacket 5)) deadendFlowActor) := by
    unfold receiver
    dsimp only
    rw [hnone, hallocate]
  have hblank : (rt.bind (flowKeyOf (tcpPacket 5)) deadendFlowActor).ledger.DeadendBlank :=
    (sound_of_reachable hreach).blank
  refine ⟨rt, hreach, ⟨_, hreceiver, not_initialised_deadend hblank⟩, ?_⟩
  change rt.schedule connected (tcpPacket 5) = none
  rw [schedule_eq, hreceiver]
  exact pktMsg_deadend hblank _ _

end Runtime

end NfvActor.Actor
