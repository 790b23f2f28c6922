import Mathlib.Tactic
import NfvActor.Actor.Awaiting
import NfvActor.Migration.Traffic

/-!
# The actor that has shipped its flow state

An actor that has sent its flow state waits in `flow_actor_migration_source_after_route_change` until it is
removed, unless its timer for the answer fires, a flow state is delivered to it, or `coordinator_mp` takes it
off the active list again. Actor ids tell one actor from the next one in the same memory.
-/

namespace NfvActor.Actor

open NfvActor.Foundation
open NfvActor.Actor.Runtime (deadendFlowActor)
open NfvActor.Reliable (Packet)

namespace Ledger

variable {σ : Type}

/-- The step looks for an actor to give to a flow. -/
def admits (ledger : Ledger) : Input σ → Bool
  | .packet _ pkt => (ledger.htable (flowKeyOf pkt)).isNone
  | .message _ _ message => decide (message.recvActorId = coordinatorActorId) &&
    match message.body with
    | .createMigrationTargetActor _ _ _ => true
    | .replication _ _ key _ _ => (ledger.htable key).isNone
    | _ => false
  | _ => false

/-- The number of actor ids that a step gives out. -/
def actorIdsTaken (ledger : Ledger) (input : Input σ) : ℕ :=
  if ledger.admits input = true ∧ ledger.allocator.pop.isSome = true then 1 else 0

/-- The counter of actor ids does not pass zero in the step. -/
def actorIdsHold (ledger : Ledger) (input : Input σ) : Bool :=
  decide (idBound ledger.nextFlowActorId + ledger.actorIdsTaken input ≤ 2 ^ 32)

/-- Live actors have different ids, below the next one. -/
structure IdsFresh (ledger : Ledger) : Prop where
  bound : ∀ ptr, ledger.Live ptr → (ledger.cards ptr).actorId.toNat < idBound ledger.nextFlowActorId
  unique : ∀ ptr ptr', ledger.Live ptr → ledger.Live ptr' →
    (ledger.cards ptr).actorId = (ledger.cards ptr').actorId → ptr = ptr'

namespace IdsFresh

variable {ledger ledger' : Ledger} {ptr : ℕ}

variable {input : Input σ}

theorem admits_of_admits {key : FlowKey} (h : ledger.Admits input key) : ledger.admits input = true := by
  cases h with
  | packet _ _ hnone => rw [Ledger.admits, hnone]; rfl
  | target _ _ _ _ _ _ hrecv hbody => simp [Ledger.admits, hrecv, hbody]
  | replica _ _ _ _ _ _ _ _ hrecv hbody hnone => simp [Ledger.admits, hrecv, hbody, hnone]

/-- A step assigns at most one actor id, and only if it is expected to. -/
theorem nextFlowActorId_effect (hsound : ledger.Sound) (heffect : ledger.Effect input ledger') :
      ledger'.nextFlowActorId = ledger.nextFlowActorId ∨
      ledger'.nextFlowActorId = ledger.nextFlowActorId + UInt32.ofNat (ledger.actorIdsTaken input) := by
  cases heffect.transfer with
  | none _ _ _ _ htouch => exact .inl htouch.nextFlowActorId
  | enroll _ _ _ _ _ _ _ hpop hadmits =>
    rw [actorIdsTaken, if_pos ⟨admits_of_admits hadmits, by rw [hpop]; rfl⟩]
    exact .inr rfl
  | bindDeadend => exact .inl rfl
  | expire _ _ _ harmed =>
    rw [remove_eq _ (hsound.ne_deadend_of_armed harmed)]
    exact .inl rfl
  | complete _ _ _ _ hdelivers =>
    rw [Ledger.complete, remove_eq _ (hsound.ne_deadend_of_set hdelivers.2.2)]
    exact .inl rfl

theorem effect_of_le (h : ledger.IdsFresh) (hsound : ledger.Sound) (heffect : ledger.Effect input ledger')
    (hle : idBound ledger.nextFlowActorId ≤ idBound ledger'.nextFlowActorId) : ledger'.IdsFresh := by
  -- An actor that was live keeps its id; the one that is handed out gets the next.
  have hcases {ptr : ℕ} (hlive : ledger'.Live ptr) :
      (ledger.Live ptr ∧ (ledger'.cards ptr).actorId = (ledger.cards ptr).actorId) ∨
      (ledger'.cards ptr).actorId = ledger.nextFlowActorId ∧
        (idBound ledger.nextFlowActorId ≤ ledger.nextFlowActorId.toNat ∧
          ledger.nextFlowActorId.toNat < idBound ledger'.nextFlowActorId) ∧
        ∃ ring, ledger.allocator.pop = some (ptr, ring) := by
    rcases heffect.turn_or_admitted hsound hlive with ⟨hold, hturn⟩ | ⟨_, _, _, hadmitted⟩
    · generalize ledger'.cards ptr = card at hturn
      exact .inl ⟨hold, by cases hturn <;> rfl⟩
    · refine .inr ⟨by rw [hadmitted.card]; rfl, ?_, hadmitted.popped⟩
      rw [hadmitted.next, idBound_succ] at hle ⊢
      exact ⟨idBound_le_toNat (.inl rfl) hle, Nat.lt_succ_self _⟩
  refine ⟨fun ptr hlive ↦ ?_, fun ptr ptr' hlive hlive' heq ↦ ?_⟩
  · rcases hcases hlive with ⟨hold, hid⟩ | ⟨hid, hlt, -⟩ <;> rw [hid]
    · exact (h.bound ptr hold).trans_le hle
    · exact hlt.2
  · rcases hcases hlive with ⟨hold, hid⟩ | ⟨hid, hlt, ring, hpop⟩ <;>
      rcases hcases hlive' with ⟨hold', hid'⟩ | ⟨hid', hlt', ring', hpop'⟩ <;> rw [hid, hid'] at heq
    · exact h.unique ptr ptr' hold hold' heq
    · exact absurd (h.bound ptr hold) (by rw [heq]; exact hlt'.1.not_gt)
    · exact absurd (h.bound ptr' hold') (by rw [← heq]; exact hlt.1.not_gt)
    · rw [hpop] at hpop'
      exact (Prod.mk.inj (Option.some.inj hpop')).1

/-- The ids stay fresh as long as the counter, which only grows, does not wrap around. -/
theorem effect (h : ledger.IdsFresh) (hsound : ledger.Sound)
    (hroom : ledger.actorIdsHold input = true) (heffect : ledger.Effect input ledger') :
    ledger'.IdsFresh ∧ idBound ledger.nextFlowActorId ≤ idBound ledger'.nextFlowActorId := by
  have hle : idBound ledger.nextFlowActorId ≤ idBound ledger'.nextFlowActorId := by
    rcases nextFlowActorId_effect hsound heffect with hsame | hnext
    · rw [hsame]
    · rw [hnext, idBound_add (of_decide_eq_true hroom)]
      exact Nat.le_add_right ..
  exact ⟨h.effect_of_le hsound heffect hle, hle⟩

end IdsFresh

/-- The live actor with this id, if any, waits for the answer to `migrate_flow_state_t`. -/
def Shipping (ledger : Ledger) (id msgId : UInt32) : Prop :=
  ∀ ptr, ledger.Live ptr → (ledger.cards ptr).actorId = id →
    (ledger.cards ptr).currentState = .afterRouteChange ∧
      (ledger.cards ptr).migrationTimer = ⟨msgId, .migrateFlowStateTimeout⟩

namespace Shipping

variable {ledger ledger' : Ledger} {ptr : ℕ} {id msgId : UInt32}

theorem alter (h : ledger.Shipping id msgId) (halters : ledger.Alters ledger' ptr)
    (hptr : ledger'.Live ptr → (ledger'.cards ptr).actorId = id →
      (ledger'.cards ptr).currentState = .afterRouteChange ∧
        (ledger'.cards ptr).migrationTimer = ⟨msgId, .migrateFlowStateTimeout⟩) :
    ledger'.Shipping id msgId := by
  intro other hlive hid
  by_cases heq : other = ptr
  · rw [heq] at hlive hid ⊢
    exact hptr hlive hid
  · rw [halters.live other heq] at hlive
    rw [halters.cards other heq] at hid ⊢
    exact h other hlive hid

/-- Every effect that neither ends the wait of the actor nor restarts it. -/
theorem effect (h : ledger.Shipping id msgId) (hsound : ledger.Sound)
    (hid : id.toNat < idBound ledger.nextFlowActorId) {input : Input σ}
    (hle : idBound ledger.nextFlowActorId ≤ idBound ledger'.nextFlowActorId)
    (hanswers : ∀ ptr, ledger.Live ptr → (ledger.cards ptr).actorId = id →
      ¬ledger.Answers input ptr .migration)
    (harrives : ∀ ptr, ledger.ArrivesAt ptr input → (ledger.cards ptr).actorId = id →
      (ledger.cards ptr).currentState.migrating = false)
    (hdeparts : ∀ ptr, ledger.Departs ptr input → (ledger.cards ptr).actorId = id →
      (ledger.cards ptr).currentState.migrating = false)
    (heffect : ledger.Effect input ledger') : ledger'.Shipping id msgId := by
  -- A live actor with the id is in a migrating state and keeps its state and its timer.
  intro ptr hlive heq
  rcases heffect.turn_or_admitted hsound hlive with ⟨hold, hturn⟩ | ⟨_, _, _, hadmitted⟩
  · generalize ledger'.cards ptr = card at hturn heq
    have hmigrating (heq : (ledger.cards ptr).actorId = id) :
        (ledger.cards ptr).currentState.migrating ≠ false := by
      rw [(h ptr hold heq).1]
      decide
    cases hturn with
    | refuse hdepart | depart _ hdepart => exact absurd (hdeparts ptr hdepart heq) (hmigrating heq)
    | abandon hanswer | request _ _ hanswer => exact absurd hanswer (hanswers ptr hold heq)
    | arrive harrive => exact absurd (harrives ptr harrive heq) (hmigrating heq)
    | _ => exact h ptr hold heq
  · rw [hadmitted.card] at heq
    have hnext : id = ledger.nextFlowActorId := heq.symm
    rw [hadmitted.next, ← hnext, idBound_succ] at hle
    rw [← hnext] at hid
    exact absurd hid (idBound_le_toNat (.inl rfl) hle).not_gt

end Shipping

/-- The actor has the given id and is migrating. -/
def underWay (ledger : Ledger) (id : UInt32) (ptr : ℕ) : Bool :=
  (ledger.cards ptr).actorId == id && (ledger.cards ptr).currentState.migrating

/-- A step that does not time out the flow state that the actor has sent, and while it is migrating neither
hands it one nor picks it. -/
def spares (ledger : Ledger) (id : UInt32) : Input σ → Bool
  | .fire _ ptr kind => (ledger.cards ptr).actorId != id ||
    ((ledger.cards ptr).timer kind).msgType != .migrateFlowStateTimeout
  | .message _ _ message =>
    match message.body, ledger.actoridHtable message.recvActorId with
    | .migrateFlowState _, some ptr => !ledger.underWay id ptr
    | _, _ => true
  | .migrationIteration _ =>
    match ledger.links.peekFirst .activeFlows with
    | some (.actor ptr) => !ledger.underWay id ptr
    | _ => true
  | _ => true

variable {ledger : Ledger} {id : UInt32} {ptr : ℕ} {input : Input σ}

theorem not_migrating_of_not_underWay (h : (!ledger.underWay id ptr) = true)
    (hid : (ledger.cards ptr).actorId = id) : (ledger.cards ptr).currentState.migrating = false := by
  simpa [underWay, hid] using h

theorem migrating_of_arrivesAt (h : ledger.spares id input = true) (harrives : ledger.ArrivesAt ptr input)
    (hid : (ledger.cards ptr).actorId = id) : (ledger.cards ptr).currentState.migrating = false := by
  cases input with
  | message =>
    obtain ⟨hdelivers, states, hbody⟩ := harrives
    rw [spares, hbody, hdelivers.2.1] at h
    exact not_migrating_of_not_underWay h hid
  | _ => exact harrives.elim

theorem migrating_of_departs (h : ledger.spares id input = true) (hdeparts : ledger.Departs ptr input)
    (hid : (ledger.cards ptr).actorId = id) : (ledger.cards ptr).currentState.migrating = false := by
  cases input with
  | migrationIteration =>
    rw [spares, hdeparts.2] at h
    exact not_migrating_of_not_underWay h hid
  | _ => exact hdeparts.elim

/-- An answer to a shipping actor comes from the receiver of the flow state. -/
theorem Shipping.closes_of_answers {msgId : UInt32} (h : ledger.Shipping id msgId) (hsound : ledger.Sound)
    (hspares : ledger.spares id input = true) (hlive : ledger.Live ptr)
    (hid : (ledger.cards ptr).actorId = id) (hanswers : ledger.Answers input ptr .migration) :
    ∃ env senderRtid message round, input = .message env senderRtid message ∧
      message.body.closes = some (round, msgId) := by
  have htimer := (h ptr hlive hid).2
  generalize hkind : TimerKind.migration = kind at hanswers
  cases hanswers with
  | timeout _ ptr kind' harmed =>
    rw [hsound.typed ptr kind' harmed] at hkind
    rw [spares, ← hkind, Card.timer, htimer, hid] at hspares
    exact absurd hspares (by simp)
  | response env senderRtid message _ _ _ hbody =>
    rw [← hkind, Card.timer, htimer] at hbody
    obtain ⟨round, hcloses⟩ := MessageBody.closes_of_request hbody
    exact ⟨env, senderRtid, message, round, rfl, hcloses⟩

end Ledger

namespace Runtime

variable {σ τ : Type} {rt rt' : Runtime σ τ}

/-- A response to `migrate_flow_state_t` is ignored or removes its actor. -/
theorem step_migrateFlowStateResponse {env : Environment σ} {senderRtid : UInt32} {message : Message σ}
    {requestMsgId : UInt32} (hbody : message.body = .migrateFlowStateResponse requestMsgId)
    (h : rt.step (.message env senderRtid message) = some rt') :
    rt'.ledger = rt.ledger ∨ ∃ ptr, rt.ledger.Delivers message ptr ∧ rt'.ledger = rt.ledger.complete ptr := by
  cases step_outcome h with
  | rest => exact .inl rfl
  | complete _ _ _ ptr hdelivers =>
    rw [ledger_removed, ledger_settled]
    exact .inr ⟨ptr, hdelivers, rfl⟩
  | tally _ _ htallies => cases htallies
  | abandon _ _ _ habandons =>
    cases habandons
    simp_all
  | ask _ _ _ _ _ hprepares => cases hprepares <;> simp_all
  | newFlow _ _ _ _ hopens => cases hopens <;> simp_all
  | route _ _ _ _ _ _ _ _ _ hreroutes => cases hreroutes <;> simp_all
  | _ => simp_all

/-- An actor that has shipped its flow state keeps waiting, or is gone, after a step that spares it. -/
theorem shipping_step {id msgId : UInt32} {input : Input σ} (h : rt.ledger.Shipping id msgId)
    (hsound : rt.ledger.Sound) (hid : id.toNat < idBound rt.nextFlowActorId)
    (hle : idBound rt.nextFlowActorId ≤ idBound rt'.nextFlowActorId)
    (hspares : rt.ledger.spares id input = true)
    (hreplies : ∀ env senderRtid message round, input = .message env senderRtid message →
      message.body.closes = some (round, msgId) → round = .shipState)
    (hstep : rt.step input = some rt') : rt'.ledger.Shipping id msgId := by
  by_cases hanswered : ∃ env senderRtid message round, input = .message env senderRtid message ∧
      message.body.closes = some (round, msgId)
  · obtain ⟨env, senderRtid, message, round, rfl, hcloses⟩ := hanswered
    rw [hreplies env senderRtid message round rfl hcloses] at hcloses
    have hbody : message.body = .migrateFlowStateResponse msgId := by
      cases hcase : message.body <;> simp_all [MessageBody.closes]
    rcases step_migrateFlowStateResponse hbody hstep with hledger | ⟨ptr, hdelivers, hledger⟩
    · rw [hledger]
      exact h
    · rw [hledger]
      have hleaves := Ledger.Leaves.complete hsound hdelivers
      exact h.alter hleaves.remove fun hlive ↦ absurd hlive hleaves.gone
  · refine h.effect hsound hid hle ?_ (fun ptr ↦ Ledger.migrating_of_arrivesAt hspares)
      (fun ptr ↦ Ledger.migrating_of_departs hspares) (step_effect hsound.blank input hstep)
    intro ptr hlive heq hanswers
    exact hanswered (h.closes_of_answers hsound hspares hlive heq hanswers)

theorem idsFresh_boot (config : RuntimeConfig) (serviceChain : List ℕ) (code : ℕ → NetworkFunction σ τ)
    (zero : ℕ → σ) (sharedState : ℕ → τ) :
    (boot config serviceChain code zero sharedState).ledger.IdsFresh := by
  constructor
  · intro ptr hlive
    rw [live_boot hlive]
    change flowActorIdStart.toNat < idBound (flowActorIdStart + 1)
    decide
  · intro ptr ptr' hlive hlive' _
    rw [live_boot hlive, live_boot hlive']

/-- Whoever sent a flow state under this id waits for the answer, if still there. -/
def Shipped (rt : Runtime σ τ) (id : UInt32) : Prop :=
  ∀ dest message, (dest, message) ∈ rt.outbox → message.body.opens = some .shipState →
    message.sendActorId = id →
      id.toNat < idBound rt.nextFlowActorId ∧ rt.ledger.Shipping id message.msgId

theorem Shipped.step {id : UInt32} {input : Input σ} (h : rt.Shipped id) (hsound : rt.ledger.Sound)
    (hids : rt.ledger.IdsFresh) (hroom : rt.ledger.actorIdsHold input = true)
    (hspares : rt.ledger.spares id input = true)
    (hreplies : ∀ dest shipped env senderRtid message round, (dest, shipped) ∈ rt.outbox →
      shipped.body.opens = some .shipState → input = .message env senderRtid message →
      message.body.closes = some (round, shipped.msgId) → round = .shipState)
    (hstep : rt.step input = some rt') : rt'.Shipped id := by
  have heffect := step_effect hsound.blank input hstep
  obtain ⟨hids', hle⟩ := hids.effect hsound hroom heffect
  intro dest message hmem hopens hid
  rcases (step_traffic input hstep).sent_cases hmem with hold | ⟨-, hcause⟩
  · obtain ⟨hlt, hshipping⟩ := h dest message hold hopens hid
    refine ⟨hlt.trans_le hle, shipping_step hshipping hsound hlt hle hspares ?_ hstep⟩
    intro env senderRtid response round hinput hcloses
    exact hreplies dest message env senderRtid response round hold hopens hinput hcloses
  · cases hcause with
    | plain hnone => cases hnone.symm.trans hopens
    | reply _ _ _ _ _ hnone => cases hnone.symm.trans hopens
    | recovered _ _ _ _ _ _ _ hbody =>
      rw [hbody] at hopens
      exact absurd hopens (by simp [MessageBody.opens])
    | request _ hround hne =>
      exact absurd (Option.some.inj (hround.symm.trans hopens)) hne
    | ship entry ptr _ _ _ hentry hsender hstate htimer =>
      have hlive : rt'.ledger.Live ptr := (hsound.effect heffect).id_live entry ptr hentry
      have hptr : (rt'.ledger.cards ptr).actorId = id := hsender.trans hid
      refine ⟨hptr ▸ hids'.bound ptr hlive, ?_⟩
      intro other hother heq
      rw [hids'.unique other ptr hother hlive (heq.trans hptr.symm)]
      exact ⟨hstate, htimer⟩

/-- Packets for an actor that waits for this answer are dropped. -/
theorem nfs_pktMsg_afterRouteChange {env : Environment σ} {ptr : ℕ} {pkt : Packet}
    (hstate : (rt.actors ptr).currentState = .afterRouteChange) (h : rt.pktMsg env ptr pkt = some rt') :
    rt'.nfs = rt.nfs := by
  rw [pktMsg, hstate] at h
  cases h
  rfl

end Runtime

end NfvActor.Actor
