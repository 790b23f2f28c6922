import Mathlib.Tactic
import NfvActor.Actor.Custody

/-!
# Actors that wait for an answer

Only an actor that waits for an answer in a migration has an armed migration timer. This holds as long as
responses name a request, no state arrives at an actor that is migrating, and `coordinator_mp` takes live actors
that are not migrating yet.
-/

namespace NfvActor.Actor

open NfvActor.Foundation
open NfvActor.Actor.Runtime (deadendFlowActor)
open NfvActor.Reliable (Packet)

/-- The states of an actor whose flow is being migrated out. -/
def FlowState.migrating : FlowState → Bool
  | migrationSource => true
  | failureProcessing => true
  | afterRouteChange => true
  | _ => false

namespace Ledger

variable {σ : Type}

/-- Two ledgers agree on every actor but one. -/
structure Alters (ledger ledger' : Ledger) (ptr : ℕ) : Prop where
  cards : ∀ other, other ≠ ptr → ledger'.cards other = ledger.cards other
  live : ∀ other, other ≠ ptr → (ledger'.Live other ↔ ledger.Live other)

namespace Alters

variable {ledger ledger' ledger'' : Ledger} {ptr : ℕ}

theorem of_touches (h : ledger.Touches ledger' ptr) : ledger.Alters ledger' ptr where
  cards := h.others
  live := by
    intro other _
    rw [Live, Live, h.allocator]

theorem trans (h : ledger.Alters ledger' ptr) (h' : ledger'.Alters ledger'' ptr) :
    ledger.Alters ledger'' ptr where
  cards := fun other hne ↦ (h'.cards other hne).trans (h.cards other hne)
  live := fun other hne ↦ (h'.live other hne).trans (h.live other hne)

theorem enroll (hsound : ledger.Sound) {ring : RingBuffer ℕ} (head : ListNode) (key : FlowKey)
    (state : FlowState) (replication : ReplicationState) (hpop : ledger.allocator.pop = some (ptr, ring)) :
    ledger.Alters (ledger.enroll ptr ring head key state replication) ptr where
  cards := by
    intro other hne
    rw [cards_enroll, Function.update_of_ne hne]
  live := by
    intro other hne
    rw [hsound.live_enroll hpop, or_iff_right hne]

theorem remove (hsound : ledger.Sound) (hlive : ledger.Live ptr) (hptr : ptr ≠ deadendFlowActor) :
    ledger.Alters (ledger.remove ptr) ptr where
  cards := by
    intro other hne
    simp [ledger.remove_eq hptr, hne]
  live := by
    intro other hne
    rw [hsound.live_remove hlive hptr, and_iff_right hne]

end Alters

/-- The responses of a step carry the id of a request. -/
def RepliesNamed : Input σ → Prop
  | .message _ _ message => ∀ kind id, message.body.request = some (kind, id) → id ≠ invalidMessageId
  | _ => True

theorem armed_of_answers {ledger : Ledger} {input : Input σ} {ptr : ℕ} {kind : TimerKind}
    (hsound : ledger.Sound) (hnamed : RepliesNamed input) (hanswers : ledger.Answers input ptr kind) :
    ((ledger.cards ptr).timer kind).Armed := by
  cases hanswers with
  | timeout _ ptr kind harmed => rwa [hsound.typed ptr kind harmed]
  | response _ _ _ _ kind _ hbody => exact hnamed kind _ hbody

/-- The step takes an actor back: it is idle, or its migration has succeeded. -/
inductive Dismisses (ledger : Ledger) : Input σ → ℕ → Prop
  | idle (env : Environment σ) (ptr : ℕ) (kind : TimerKind) :
      ((ledger.cards ptr).timer kind).msgType = .checkIdle → Dismisses ledger (.fire env ptr kind) ptr
  | migrated (env : Environment σ) (senderRtid : UInt32) (message : Message σ) (ptr : ℕ) :
      ledger.Delivers message ptr →
      message.body = .migrateFlowStateResponse (ledger.cards ptr).migrationTimer.requestMsgId →
      Dismisses ledger (.message env senderRtid message) ptr

/-- An actor is handed out to a flow. -/
structure Admitted (ledger : Ledger) (input : Input σ) (ledger' : Ledger) (ptr : ℕ) (key : FlowKey)
    (state : FlowState) (replication : ReplicationState) : Prop where
  alters : ledger.Alters ledger' ptr
  popped : ∃ ring, ledger.allocator.pop = some (ptr, ring)
  admits : ledger.Admits input key
  starts : state = .normalProcessing ∨ state = .migrationTarget
  free : ¬ledger.Live ptr
  live : ledger'.Live ptr
  card : ledger'.cards ptr = ledger.admittedCard ptr key state replication
  next : ledger'.nextFlowActorId = ledger.nextFlowActorId + 1
  item : replication = .haveReplica → input.replicaItem.isSome = true

/-- An actor is taken back. -/
structure Dismissed (ledger : Ledger) (input : Input σ) (ledger' : Ledger) (ptr : ℕ) : Prop where
  alters : ledger.Alters ledger' ptr
  dismisses : ledger.Dismisses input ptr
  live : ledger.Live ptr
  gone : ¬ledger'.Live ptr
  id : (ledger'.cards ptr).actorId = invalidFlowActorId
  off : ∀ kind, ¬((ledger'.cards ptr).timer kind).Armed
  state : (ledger'.cards ptr).currentState = (ledger.cards ptr).currentState ∨
    (ledger'.cards ptr).currentState = .normalProcessing

/-- What a step does to the actors. -/
inductive Shift (ledger : Ledger) (input : Input σ) (ledger' : Ledger) : Prop
  | turn (ptr : ℕ) (card : Card) : ledger.Alters ledger' ptr → ledger'.allocator = ledger.allocator →
      ledger'.cards ptr = card → ledger.Turn input ptr card → Shift ledger input ledger'
  | enroll (ptr : ℕ) (key : FlowKey) (state : FlowState) (replication : ReplicationState) :
      ledger.Admitted input ledger' ptr key state replication → Shift ledger input ledger'
  | dismiss (ptr : ℕ) : ledger.Dismissed input ledger' ptr → Shift ledger input ledger'

/-- What is left of an actor just before it is removed. -/
structure Leaves (ledger mid : Ledger) (ptr : ℕ) : Prop where
  alters : ledger.Alters mid ptr
  sound : mid.Sound
  live : mid.Live ptr
  ne_deadend : ptr ≠ deadendFlowActor

namespace Leaves

variable {ledger mid : Ledger} {ptr : ℕ}

theorem remove (h : ledger.Leaves mid ptr) : ledger.Alters (mid.remove ptr) ptr :=
  h.alters.trans (.remove h.sound h.live h.ne_deadend)

theorem gone (h : ledger.Leaves mid ptr) : ¬(mid.remove ptr).Live ptr := by
  rw [h.sound.live_remove h.live h.ne_deadend]
  exact fun hstill ↦ hstill.1 rfl

theorem card (h : ledger.Leaves mid ptr) : (mid.remove ptr).cards ptr = removedCard (mid.cards ptr) := by
  simp [mid.remove_eq h.ne_deadend]

theorem expire {kind : TimerKind} (hsound : ledger.Sound) (harmed : ((ledger.cards ptr).timer kind).Armed)
    (htype : ((ledger.cards ptr).timer kind).msgType = .checkIdle) :
    ledger.Leaves ((ledger.disarm ptr .idle).release ptr) ptr where
  alters := ⟨(Touches.disarm ledger ptr .idle).others, fun _ _ ↦ Iff.rfl⟩
  sound := (hsound.disarm (hsound.ne_deadend_of_armed harmed) .idle).release ptr
  live := hsound.live_of_checkIdle harmed htype
  ne_deadend := hsound.ne_deadend_of_armed harmed

theorem complete {message : Message σ} (hsound : ledger.Sound) (hdelivers : ledger.Delivers message ptr) :
    ledger.Leaves ((ledger.settle ptr).disarm ptr .idle) ptr where
  alters := .of_touches ((Touches.settle ledger ptr).trans (.disarm _ ptr .idle))
  sound := (hsound.settle (hsound.ne_deadend_of_set hdelivers.2.2)).disarm
    (hsound.ne_deadend_of_set hdelivers.2.2) .idle
  live := hsound.id_live _ ptr hdelivers.2.1
  ne_deadend := hsound.ne_deadend_of_set hdelivers.2.2

theorem dismissed {input : Input σ} (h : ledger.Leaves mid ptr) (hdismisses : ledger.Dismisses input ptr)
    (hlive : ledger.Live ptr) (hstate : (mid.cards ptr).currentState = (ledger.cards ptr).currentState ∨
      (mid.cards ptr).currentState = .normalProcessing) : ledger.Dismissed input (mid.remove ptr) ptr where
  alters := h.remove
  dismisses := hdismisses
  live := hlive
  gone := h.gone
  id := congrArg Card.actorId h.card
  off kind := by
    rw [h.card]
    exact not_armed_removedCard _ kind
  state := by
    rw [h.card]
    exact hstate

end Leaves

theorem Admitted.enroll {ledger : Ledger} {input : Input σ} {ptr : ℕ} {ring : RingBuffer ℕ} {key : FlowKey}
    {state : FlowState} (hsound : ledger.Sound) (head : ListNode) (replication : ReplicationState)
    (hpop : ledger.allocator.pop = some (ptr, ring)) (hadmits : ledger.Admits input key)
    (hstate : state = .normalProcessing ∨ state = .migrationTarget)
    (hitem : replication = .haveReplica → input.replicaItem.isSome = true) :
    ledger.Admitted input (ledger.enroll ptr ring head key state replication) ptr key state replication where
  alters := .enroll hsound head key state replication hpop
  popped := ⟨ring, hpop⟩
  admits := hadmits
  starts := hstate
  free := (hsound.pool.pop hpop).2.1
  live := (hsound.live_enroll hpop ptr).2 (.inl rfl)
  card := by rw [cards_enroll, Function.update_self]
  next := rfl
  item := hitem

/-- Every effect concerns one actor. -/
theorem Effect.shift {ledger ledger' : Ledger} {input : Input σ} (hsound : ledger.Sound)
    (heffect : ledger.Effect input ledger') : ledger.Shift input ledger' := by
  cases heffect.transfer with
  | none _ _ ptr card htouch hcard hturn =>
    exact .turn ptr card (.of_touches htouch) htouch.allocator hcard hturn
  | enroll _ ptr _ head key state replication hpop hadmits hstate hitem =>
    exact .enroll ptr key state replication (.enroll hsound head replication hpop hadmits hstate hitem)
  | bindDeadend => exact .turn 0 _ ⟨fun _ _ ↦ rfl, fun _ _ ↦ Iff.rfl⟩ rfl rfl .stay
  | expire env ptr kind harmed htype =>
    have hleaves := Leaves.expire hsound harmed htype
    refine .dismiss ptr (hleaves.dismissed (.idle env ptr kind htype) hleaves.live (.inl ?_))
    change ((ledger.disarm ptr .idle).cards ptr).currentState = _
    rw [disarm, modifyCard, cards_setCard]
    rfl
  | complete env senderRtid message ptr hdelivers hbody =>
    have hleaves := Leaves.complete hsound hdelivers
    refine .dismiss ptr (hleaves.dismissed (.migrated env senderRtid message ptr hdelivers hbody)
      hleaves.live (.inr ?_))
    simp [settle, disarm, modifyCard, setCard, Card.setTimer]

/-- An actor that is live after a step was live and took a turn, or was handed out. -/
theorem Effect.turn_or_admitted {ledger ledger' : Ledger} {input : Input σ} {ptr : ℕ} (hsound : ledger.Sound)
    (heffect : ledger.Effect input ledger') (hlive : ledger'.Live ptr) :
    (ledger.Live ptr ∧ ledger.Turn input ptr (ledger'.cards ptr)) ∨
      ∃ key state replication, ledger.Admitted input ledger' ptr key state replication := by
  have hkept {other : ℕ} (halters : ledger.Alters ledger' other) (hne : ptr ≠ other) :
      ledger.Live ptr ∧ ledger.Turn input ptr (ledger'.cards ptr) :=
    ⟨(halters.live ptr hne).1 hlive, by rw [halters.cards ptr hne]; exact .stay⟩
  cases heffect.shift hsound with
  | turn other _ halters hallocator hcard hturn =>
    rcases eq_or_ne ptr other with rfl | hne
    · exact .inl ⟨by rwa [Live, hallocator] at hlive, hcard ▸ hturn⟩
    · exact .inl (hkept halters hne)
  | enroll other key state replication hadmitted =>
    rcases eq_or_ne ptr other with rfl | hne
    · exact .inr ⟨key, state, replication, hadmitted⟩
    · exact .inl (hkept hadmitted.alters hne)
  | dismiss other hdismissed =>
    exact .inl (hkept hdismissed.alters fun heq ↦ hdismissed.gone (heq ▸ hlive))

/-! ## Armed migration timers -/

/-- An armed migration timer belongs to a live actor in an allowed state. -/
def ArmedIn (ledger : Ledger) (allowed : FlowState → Bool) : Prop :=
  ∀ ptr, (ledger.cards ptr).migrationTimer.Armed →
    ledger.Live ptr ∧ allowed (ledger.cards ptr).currentState = true

/-- An armed migration timer belongs to a live actor that is migrating. -/
def Awaiting (ledger : Ledger) : Prop :=
  ∀ ptr, (ledger.cards ptr).migrationTimer.Armed →
    ledger.Live ptr ∧ (ledger.cards ptr).currentState.migrating = true

namespace ArmedIn

variable {ledger ledger' : Ledger} {allowed : FlowState → Bool} {ptr : ℕ}

theorem alter (h : ledger.ArmedIn allowed) (halters : ledger.Alters ledger' ptr)
    (hptr : (ledger'.cards ptr).migrationTimer.Armed →
      ledger'.Live ptr ∧ allowed (ledger'.cards ptr).currentState = true) : ledger'.ArmedIn allowed := by
  intro other harmed
  by_cases heq : other = ptr
  · rw [heq] at harmed ⊢
    exact hptr harmed
  · rw [halters.cards other heq] at harmed ⊢
    rw [halters.live other heq]
    exact h other harmed

/-- Kept by every step with named responses, if actors may migrate and become normal as allowed. -/
theorem effect (h : ledger.ArmedIn allowed) (hsound : ledger.Sound)
    (hallowed : ∀ state : FlowState, state.migrating = true → allowed state = true) {input : Input σ}
    (hnamed : RepliesNamed input)
    (harrives : ∀ ptr, ledger.ArrivesAt ptr input → (ledger.cards ptr).migrationTimer.Armed →
      allowed .normalProcessing = true) (hdeparts : ∀ ptr, ledger.Departs ptr input → ledger.Live ptr ∧
      ((ledger.cards ptr).migrationTimer.Armed → allowed .normalProcessing = true))
    (heffect : ledger.Effect input ledger') : ledger'.ArmedIn allowed := by
  cases heffect.shift hsound with
  | turn ptr card halters hallocator hcard hturn =>
    refine h.alter halters ?_
    rw [hcard, Live, hallocator]
    cases hturn with
    | refuse hdepart => exact fun harmed ↦ ⟨(h ptr harmed).1, (hdeparts ptr hdepart).2 harmed⟩
    | depart _ hdepart => exact fun _ ↦ ⟨(hdeparts ptr hdepart).1, hallowed _ rfl⟩
    | abandon => exact fun harmed ↦ absurd rfl harmed
    | request _ _ hanswers hstate =>
      obtain ⟨hlive, hbefore⟩ := h ptr (armed_of_answers hsound hnamed hanswers)
      refine fun _ ↦ ⟨hlive, ?_⟩
      rcases hstate with rfl | rfl | rfl
      · exact hbefore
      · exact hallowed _ rfl
      · exact hallowed _ rfl
    | arrive harrive => exact fun harmed ↦ ⟨(h ptr harmed).1, harrives ptr harrive harmed⟩
    | _ => exact h ptr
  | enroll ptr _ _ _ hadmitted =>
    refine h.alter hadmitted.alters fun harmed ↦ absurd ?_ hadmitted.free
    rw [hadmitted.card] at harmed
    exact (h ptr harmed).1
  | dismiss ptr hdismissed =>
    exact h.alter hdismissed.alters fun harmed ↦ absurd harmed (hdismissed.off .migration)

end ArmedIn

namespace Awaiting

variable {ledger ledger' : Ledger} {ptr : ℕ}

theorem not_armed (h : ledger.Awaiting) (hstate : (ledger.cards ptr).currentState.migrating = false) :
    ¬(ledger.cards ptr).migrationTimer.Armed := by
  intro harmed
  rw [(h ptr harmed).2] at hstate
  exact absurd hstate (by decide)

theorem effect (h : ledger.Awaiting) (hsound : ledger.Sound) {input : Input σ} (hnamed : RepliesNamed input)
    (harrives : ∀ ptr, ledger.ArrivesAt ptr input → (ledger.cards ptr).currentState.migrating = false)
    (hdeparts : ∀ ptr, ledger.Departs ptr input →
      ledger.Live ptr ∧ (ledger.cards ptr).currentState.migrating = false)
    (heffect : ledger.Effect input ledger') : ledger'.Awaiting := by
  have harmed : ledger.ArmedIn FlowState.migrating := h
  refine harmed.effect hsound (fun _ ↦ id) hnamed ?_ ?_ heffect
  · exact fun ptr hat hon ↦ absurd hon (h.not_armed (harrives ptr hat))
  · intro ptr hdepart
    obtain ⟨hlive, hstate⟩ := hdeparts ptr hdepart
    exact ⟨hlive, fun hon ↦ absurd hon (h.not_armed hstate)⟩

end Awaiting

end Ledger

end NfvActor.Actor
