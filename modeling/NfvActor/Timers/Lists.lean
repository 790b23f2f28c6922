import Mathlib.Tactic
import NfvActor.Timers.Hooks
import NfvActor.Timers.Identifiers

/-!
# The two timer lists

`idle_flow_list_` and `req_timer_list_` link the timers of all actors. A runtime is run together with the
pointers of these lists: a timer is in a list exactly when it is armed, in one list only, and the timer that
`trigger_timer` finds is armed.
-/

namespace NfvActor.Actor

open NfvActor.Foundation

/-- The nodes of the timer lists: the head of each list and the item of every timer. -/
inductive TimerNode
  | head (list : TimerList)
  | timer (ptr : ℕ) (kind : TimerKind)
deriving DecidableEq, Repr

/-- What a call does to the pointers. -/
def TimerCall.relink (links : Links TimerNode) : TimerCall → Links TimerNode
  | .add ptr kind list _ _ => links.addTail (.head list) (.timer ptr kind)
  | .invalidate ptr kind => links.del (.timer ptr kind)

/-- The lists hold exactly the armed timers. -/
structure TimersListed (table : TimerTable) (links : Links TimerNode)
    (items : TimerList → List TimerNode) : Prop where
  rings : links.Rings .head items
  armed : ∀ ptr kind, (∃ list, .timer ptr kind ∈ items list) ↔ (table ptr kind).Armed

namespace TimersListed

variable {table table' : TimerTable} {links : Links TimerNode} {items : TimerList → List TimerNode}
  {ptr : ℕ} {kind : TimerKind}

variable (h : TimersListed table links items)

include h

theorem add (list : TimerList) {requestMsgId : UInt32} (msgType : TimerMessage)
    (hid : requestMsgId ≠ invalidMessageId) (hoff : ¬(table ptr kind).Armed) :
    TimersListed (table.set ptr kind ⟨requestMsgId, msgType⟩) (links.addTail (.head list) (.timer ptr kind))
      (Function.update items list (items list ++ [.timer ptr kind])) where
  rings := by
    refine h.rings.addTail list fun other hmem ↦ ?_
    rcases List.mem_cons.1 hmem with heq | hmem
    · cases heq
    · exact hoff ((h.armed ptr kind).1 ⟨other, hmem⟩)
  armed := by
    intro ptr' kind'
    rw [TimerTable.set_apply]
    by_cases heq : ptr' = ptr ∧ kind' = kind
    · obtain ⟨rfl, rfl⟩ := heq
      rw [if_pos ⟨rfl, rfl⟩]
      exact ⟨fun _ ↦ hid, fun _ ↦ ⟨list, by simp⟩⟩
    · rw [if_neg heq, ← h.armed ptr' kind']
      refine exists_congr fun other ↦ ?_
      by_cases hlist : other = list
      · subst hlist
        simp [heq]
      · rw [Function.update_of_ne hlist]

theorem invalidate (ptr : ℕ) (kind : TimerKind) :
    TimersListed (table.set ptr kind (table ptr kind).invalidate) (links.del (.timer ptr kind))
      fun list ↦ (items list).erase (.timer ptr kind) where
  rings := h.rings.del fun list ↦ by simp
  armed := by
    intro ptr' kind'
    rw [TimerTable.set_apply]
    by_cases heq : ptr' = ptr ∧ kind' = kind
    · obtain ⟨rfl, rfl⟩ := heq
      rw [if_pos ⟨rfl, rfl⟩]
      refine ⟨?_, fun harmed ↦ absurd rfl harmed⟩
      rintro ⟨list, hmem⟩
      have hnodup := (List.nodup_cons.1 (h.rings.ring list).nodup).2
      exact absurd hmem (List.Nodup.not_mem_erase hnodup)
    · rw [if_neg heq, ← h.armed ptr' kind']
      refine exists_congr fun list ↦ ?_
      rw [List.mem_erase_of_ne (by simpa using heq)]

/-- The calls of a step keep the lists and the timers in step. -/
theorem calls {calls : List TimerCall} (hrun : table.calls calls = some table')
    (hids : ∀ ptr kind list requestMsgId msgType, .add ptr kind list requestMsgId msgType ∈ calls →
      requestMsgId ≠ invalidMessageId) :
    ∃ items', TimersListed table' (calls.foldl TimerCall.relink links) items' := by
  induction calls generalizing table links items with
  | nil =>
    cases hrun
    exact ⟨items, h⟩
  | cons call rest ih =>
    obtain ⟨mid, hcall, hrest⟩ := Option.bind_eq_some_iff.1 hrun
    have hids' : ∀ ptr kind list requestMsgId msgType,
        .add ptr kind list requestMsgId msgType ∈ rest → requestMsgId ≠ invalidMessageId :=
      fun ptr kind list id type hmem ↦ hids ptr kind list id type (List.mem_cons_of_mem _ hmem)
    cases call with
    | add ptr kind list requestMsgId msgType =>
      rw [TimerTable.call] at hcall
      split at hcall
      · next hidle =>
        rw [← Option.some.inj hcall] at hrest
        have hid := hids ptr kind list requestMsgId msgType List.mem_cons_self
        exact ih (h.add list msgType hid fun harmed ↦ harmed hidle) hrest hids'
      · cases hcall
    | invalidate ptr kind =>
      rw [← Option.some.inj hcall] at hrest
      exact ih (h.invalidate ptr kind) hrest hids'

theorem armed_of_peekFirst {list : TimerList} {node : TimerNode}
    (hpeek : links.peekFirst (.head list) = some node) :
    ∃ ptr kind, node = .timer ptr kind ∧ (table ptr kind).Armed := by
  rw [Links.peekFirst_eq (h.rings.ring list)] at hpeek
  have hmem := List.mem_of_head? hpeek
  cases node with
  | timer ptr kind => exact ⟨ptr, kind, rfl, (h.armed ptr kind).1 ⟨list, hmem⟩⟩
  | head other =>
    have heq := h.rings.eq_of_mem (List.mem_cons_of_mem _ hmem) List.mem_cons_self
    rw [heq] at hmem
    exact absurd hmem (List.nodup_cons.1 (h.rings.ring other).nodup).1

end TimersListed

namespace Runtime

variable {σ τ : Type}

/-- Responses carry the id of a request, and a flow state is delivered only to an actor that is on no list and
waits for no answer. -/
def deliversMeant (rt : Runtime σ τ) : Input σ → Bool
  | .message _ _ message =>
    (message.body.request.all fun request ↦ request.2 != invalidMessageId) &&
      match message.body with
      | .migrateFlowState _ => (rt.actoridHtable message.recvActorId).all fun ptr ↦
        decide (rt.links.next (.actor ptr) = .actor ptr) &&
          (rt.actors ptr).migrationTimer.requestMsgId == invalidMessageId &&
          (rt.actors ptr).replicationTimer.requestMsgId == invalidMessageId
      | _ => true
  | _ => true

theorem meant_of_deliversMeant {rt : Runtime σ τ} {input : Input σ} (h : rt.deliversMeant input = true) :
    rt.ledger.Meant input := by
  constructor
  · intro ptr harrives
    cases input with
    | message _ _ message =>
      obtain ⟨⟨-, hentry, -⟩, states, hbody⟩ := harrives
      have hentry' : rt.actoridHtable message.recvActorId = some ptr := hentry
      rw [deliversMeant, hbody, Bool.and_eq_true] at h
      dsimp only at h
      rw [hentry', Option.all_some] at h
      simp only [Bool.and_eq_true, decide_eq_true_eq, beq_iff_eq] at h
      obtain ⟨-, ⟨hself, hmigration⟩, hreplication⟩ := h
      refine ⟨hself, fun kind hkind ↦ ?_⟩
      cases kind with
      | idle => exact absurd rfl hkind
      | migration => exact fun harmed ↦ harmed hmigration
      | replication => exact fun harmed ↦ harmed hreplication
    | _ => exact harrives.elim
  · cases input with
    | message =>
      intro kind id hrequest
      rw [deliversMeant, hrequest, Bool.and_eq_true, Option.all_some, bne_iff_ne] at h
      exact h.1
    | _ => trivial

/-- A step whose calls arm timers with proper ids. -/
theorem Makes.ids_ne {rt rt' : Runtime σ τ} {calls : List TimerCall} (h : rt.Makes calls rt')
    (htwo : 2 ≤ idBound rt.nextMsgId) (hle : idBound rt.nextMsgId ≤ idBound rt'.nextMsgId) (ptr : ℕ)
    (kind : TimerKind) (list : TimerList) (requestMsgId : UInt32) (msgType : TimerMessage)
    (hmem : .add ptr kind list requestMsgId msgType ∈ calls) : requestMsgId ≠ invalidMessageId := by
  rcases h.arms _ hmem with hidle | hrequest
  · rw [hidle.2.2.1]
    decide
  · rintro rfl
    exact absurd (htwo.trans (hrequest.2.2.toNat_lt hle).1) (by decide)

end Runtime

/-- A runtime with the pointers of its timer lists. -/
structure Timed (σ τ : Type) where
  rt : Runtime σ τ
  lists : Links TimerNode

namespace Timed

variable {σ τ : Type}

def step (timed : Timed σ τ) (input : Input σ) : Option (Timed σ τ) :=
  (timed.rt.step input).map fun rt' ↦
    ⟨rt', (timed.rt.timerCalls input).foldl TimerCall.relink timed.lists⟩

def system (σ τ : Type) : TransitionSystem (Timed σ τ) (Input σ) where
  init timed := (Runtime.system σ τ).init timed.rt ∧ timed.lists = .detached
  step := step

/-- The message ids last, and deliveries are meant for their receivers. -/
def permits (timed : Timed σ τ) (input : Input σ) : Bool :=
  timed.rt.messageIdsHold input && timed.rt.deliversMeant input

/-- Whatever the next step is, `add_timer` finds the timer disarmed. A timer is in one list at most, and in a
list exactly when it is armed. What `trigger_timer` finds is armed. -/
structure ArmedOnce (timed : Timed σ τ) : Prop where
  disarmed : ∀ input, (timed.rt.timers.calls (timed.rt.timerCalls input)).isSome
  linked : ∃ items : TimerList → List TimerNode, timed.lists.Rings .head items ∧
    ∀ ptr kind, (∃ list, .timer ptr kind ∈ items list) ↔ ((timed.rt.actors ptr).timer kind).Armed
  triggered : ∀ list node, timed.lists.peekFirst (.head list) = some node →
    ∃ ptr kind, node = .timer ptr kind ∧ ((timed.rt.actors ptr).timer kind).Armed

/-- What every step keeps. -/
structure Kept (timed : Timed σ τ) : Prop where
  sound : timed.rt.ledger.Sound
  resting : timed.rt.ledger.Resting
  message : 2 ≤ idBound timed.rt.nextMsgId
  listed : ∃ items, TimersListed timed.rt.timers timed.lists items

theorem Kept.init {timed : Timed σ τ} (h : (system σ τ).init timed) : timed.Kept := by
  obtain ⟨⟨config, serviceChain, code, zero, sharedState, hboot⟩, hlists⟩ := h
  have hblank := Runtime.blank_boot config serviceChain code zero sharedState
  have hidentified := Runtime.identified_boot config serviceChain code zero sharedState
  rw [← hboot] at hblank hidentified
  refine ⟨hidentified.sound, hboot ▸ Runtime.resting_boot config serviceChain code zero sharedState,
    hidentified.message, fun _ ↦ [], ?_, ?_⟩
  · rw [hlists]
    refine Links.Rings.detached ?_
    intro list list' heq
    simpa using heq
  · intro ptr kind
    refine ⟨fun ⟨list, hmem⟩ ↦ absurd hmem (by simp), fun harmed ↦ ?_⟩
    rw [Runtime.timers, ← Runtime.card_timer] at harmed
    exact absurd harmed ((hblank ptr).timers kind)

theorem Kept.step {timed timed' : Timed σ τ} {input : Input σ} (h : timed.Kept)
    (hpermits : timed.permits input = true) (hstep : timed.step input = some timed') : timed'.Kept := by
  obtain ⟨rt', hrt, rfl⟩ := Option.map_eq_some_iff.1 hstep
  rw [permits, Bool.and_eq_true] at hpermits
  have hle := Runtime.idBound_mono hpermits.1 hrt
  have heffect := Runtime.step_effect h.sound.blank input hrt
  have hmakes := Runtime.step_makes input hrt
  obtain ⟨items, hlisted⟩ := h.listed
  exact ⟨h.sound.effect heffect,
    h.resting.effect h.sound (Runtime.meant_of_deliversMeant hpermits.2) heffect, h.message.trans hle,
    hlisted.calls hmakes.run (hmakes.ids_ne h.message hle)⟩

/-- Timers are armed at most once in every run in which message ids last, responses name a request, and a
flow state arrives only at an actor that is on no list and waits for no answer. -/
theorem timers_armed_once {timed : Timed σ τ}
    (hreach : (system σ τ).Reachable (fun timed input ↦ timed.permits input = true) timed) :
    timed.ArmedOnce := by
  have h : timed.Kept := hreach.invariant (fun _ hinit ↦ .init hinit)
    fun _ _ _ hkept hpermits hstep ↦ hkept.step hpermits hstep
  obtain ⟨items, hlisted⟩ := h.listed
  exact ⟨Runtime.isSome_timerCalls h.sound h.resting, ⟨items, hlisted.rings, hlisted.armed⟩,
    fun _ _ hpeek ↦ hlisted.armed_of_peekFirst hpeek⟩

/-- A fresh runtime with empty timer lists. -/
def smallBoot : Timed Unit Unit := ⟨.smallBoot [], .detached⟩

theorem init_smallBoot : (system Unit Unit).init smallBoot := ⟨Runtime.init_smallBoot [], rfl⟩

/-- A flow asked to migrate has its idle timer in one list and its migration timer in the other. -/
theorem timers_armed_once_underMigration : ∃ timed : Timed Unit Unit,
    timed.lists.peekFirst (.head .idleFlows) = some (.timer 1 .idle) ∧
      timed.lists.peekFirst (.head .requests) = some (.timer 1 .migration) ∧ timed.ArmedOnce := by
  obtain ⟨timed, htimed, hidle, hrequest⟩ : ∃ timed ∈ (system Unit Unit).runChecked permits smallBoot
      [.packet Runtime.connected (Runtime.tcpPacket 5), .migrateTo 1 2, .migrationIteration Runtime.connected],
      timed.lists.peekFirst (.head .idleFlows) = some (.timer 1 .idle) ∧
        timed.lists.peekFirst (.head .requests) = some (.timer 1 .migration) := by decide +kernel
  exact ⟨timed, hidle, hrequest, timers_armed_once (.replayChecked init_smallBoot htimed)⟩

/-- A migration target is asked to migrate out, and then its flow state arrives. -/
def targetAsked : List (Input Unit) :=
  [.message Runtime.connected 2 ⟨7, coordinatorActorId, 9,
      .createMigrationTargetActor FlowActor.blankHeader FlowActor.blankHeader [1]⟩,
    .migrateTo 33 2] ++ List.replicate 32 (.migrationIteration Runtime.connected) ++
    [.message Runtime.connected 2 ⟨7, 3, 11, .migrateFlowState fun _ ↦ ()⟩]

/-- The actor is on the active list while it waits for an answer: the next iteration of `coordinator_mp`
violates the assertion of `add_timer`. -/
theorem add_timer_fails_for_target : ∃ timed : Timed Unit Unit,
    (system Unit Unit).Reachable TransitionSystem.anyStep timed ∧ timed.rt.nextMsgId = 5 ∧
      (timed.rt.actors 1).migrationTimer.Armed ∧
      timed.rt.timerCalls (.migrationIteration Runtime.connected) =
        [.add 1 .migration .requests 5 .startMigrationTimeout] ∧
      timed.step (.migrationIteration Runtime.connected) = none ∧ ¬timed.ArmedOnce := by
  obtain ⟨timed, htimed, hid, harmed, hcalls, hstep, hfails⟩ :
      ∃ timed ∈ (system Unit Unit).run smallBoot targetAsked, timed.rt.nextMsgId = 5 ∧
        (timed.rt.actors 1).migrationTimer.Armed ∧
        timed.rt.timerCalls (.migrationIteration Runtime.connected) =
          [.add 1 .migration .requests 5 .startMigrationTimeout] ∧
        (timed.step (.migrationIteration Runtime.connected)).isNone = true ∧
        (timed.rt.timers.calls (timed.rt.timerCalls (.migrationIteration Runtime.connected))).isNone = true := by
    decide +kernel
  refine ⟨timed, .replay init_smallBoot htimed, hid, harmed, hcalls, Option.isNone_iff_eq_none.1 hstep,
    fun honce ↦ ?_⟩
  have hsome := honce.disarmed (.migrationIteration Runtime.connected)
  rw [Option.isNone_iff_eq_none.1 hfails] at hsome
  cases hsome

end Timed

end NfvActor.Actor
