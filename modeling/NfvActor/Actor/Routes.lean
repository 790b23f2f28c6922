import Mathlib.Tactic
import NfvActor.Actor.Custody

/-!
# Where the flows come from and go to

The two ethernet headers of a flow actor name the runtime its packets come from and the runtime they are sent
to. They are written when an actor is initialised, and only `update_output_header` changes them later. The
target of migrations is set by `migrate_to` only.
-/

namespace NfvActor.Actor

open NfvActor.Foundation
open NfvActor.Reliable (Packet)
open Function
open Option (bind_eq_some_iff map_eq_some_iff)

/-- The messages that change a route, with the flow and the new runtime. -/
def MessageBody.reroutes {σ : Type} : MessageBody σ → Option (FlowKey × UInt32)
  | changeVswitchRoute key newOutputRtId => some (key, newOutputRtId)
  | replicaRecover key newOutputRtId => some (key, newOutputRtId)
  | _ => none

namespace Runtime

variable {σ τ : Type} {base : Runtime σ τ} {request : Request σ} {message : Message σ}

/-- The runtimes in both headers of every actor. -/
def routes (rt : Runtime σ τ) (ptr : ℕ) : UInt32 × UInt32 :=
  ((rt.actors ptr).inputHeader.destRtid, (rt.actors ptr).outputHeader.destRtid)

/-- What handlers read to find their peer: headers, migration target, configuration. -/
structure Bearings where
  routes : ℕ → UInt32 × UInt32
  target : UInt32
  config : RuntimeConfig

def bearings (rt : Runtime σ τ) : Bearings where
  routes := rt.routes
  target := rt.migration.targetRtId
  config := rt.config

/-- Other headers for one actor. -/
def Bearings.head (bearings : Bearings) (ptr : ℕ) (ends : UInt32 × UInt32) : Bearings :=
  { bearings with routes := update bearings.routes ptr ends }

theorem Bearings.routes_head (bearings : Bearings) (ptr : ℕ) (ends : UInt32 × UInt32) (other : ℕ) :
    (bearings.head ptr ends).routes other = if other = ptr then ends else bearings.routes other :=
  update_apply ..

/-- An input that initialises an actor, with the flow and the runtimes in its headers. -/
inductive Founds (rt : Runtime σ τ) : Input σ → FlowKey → UInt32 × UInt32 → Prop
  | packet (env : Environment σ) (pkt : Packet) (input : UInt32) :
      rt.htable (flowKeyOf pkt) = none → inputRtid env (srcMac pkt) = some input →
      Founds rt (.packet env pkt) (flowKeyOf pkt)
        (input, (env.outputItem.getD (rt.config.defaultOutputMac, 0)).2)
  | target (env : Environment σ) (senderRtid : UInt32) (message : Message σ)
      (inputHeader outputHeader : EtherHeader) (key : FlowKey) :
      message.recvActorId = coordinatorActorId →
      message.body = .createMigrationTargetActor inputHeader outputHeader key →
      Founds rt (.message env senderRtid message) key (inputHeader.destRtid, outputHeader.destRtid)
  | replica (env : Environment σ) (senderRtid : UInt32) (message : Message σ)
      (inputHeader outputHeader : EtherHeader) (key : FlowKey) (states : ℕ → σ) (pkt : Packet) :
      message.recvActorId = coordinatorActorId →
      message.body = .replication inputHeader outputHeader key states pkt → rt.htable key = none →
      Founds rt (.message env senderRtid message) key (inputHeader.destRtid, outputHeader.destRtid)

/-- What a step does to the headers. -/
inductive Reroute (rt : Runtime σ τ) (input : Input σ) (rt' : Runtime σ τ) : Prop
  | same : rt'.bearings = rt.bearings →
      rt.allocator.pop = none ∨ (∀ key, ¬rt.ledger.Admits input key) → Reroute rt input rt'
  | found (ptr : ℕ) (ring : RingBuffer ℕ) (key : FlowKey) (ends : UInt32 × UInt32) :
      rt.allocator.pop = some (ptr, ring) → rt.Founds input key ends →
      rt'.bearings = rt.bearings.head ptr ends → Reroute rt input rt'
  | change (env : Environment σ) (senderRtid : UInt32) (message : Message σ) (key : FlowKey)
      (newOutputRtId : UInt32) (ptr : ℕ) : input = .message env senderRtid message →
      message.recvActorId = coordinatorActorId → message.body.reroutes = some (key, newOutputRtId) →
      rt.htable key = some ptr →
      rt'.bearings = rt.bearings.head ptr ((rt.routes ptr).1, newOutputRtId) →
      Reroute rt input rt'
  | retarget (migrationQouta : UInt64) (runtimeId : UInt32) : input = .migrateTo migrationQouta runtimeId →
      rt.migration.qouta = 0 → rt'.bearings = { rt.bearings with target := runtimeId } →
      Reroute rt input rt'

variable {rt rt' : Runtime σ τ} {ptr : ℕ} {kind : TimerKind} {env : Environment σ} {sendOk : Bool}
  {pkt : Packet} {key : FlowKey} {senderRtid : UInt32} {input : Input σ}

theorem bearings_of_update {actor : FlowActor} (ptr : ℕ) (h : rt'.actors = update rt.actors ptr actor)
    (hinput : actor.inputHeader = (rt.actors ptr).inputHeader)
    (houtput : actor.outputHeader = (rt.actors ptr).outputHeader)
    (htarget : rt'.migration.targetRtId = rt.migration.targetRtId) (hconfig : rt'.config = rt.config) :
    rt'.bearings = rt.bearings := by
  have hroutes : rt'.routes = rt.routes := by
    funext other
    rw [routes, routes, h, update_apply]
    split
    · next heq => rw [hinput, houtput, heq]
    · rfl
  rw [bearings, bearings, hroutes, htarget, hconfig]

theorem bearings_modifyActor (rt : Runtime σ τ) (ptr : ℕ) {change : FlowActor → FlowActor}
    (hinput : (change (rt.actors ptr)).inputHeader = (rt.actors ptr).inputHeader)
    (houtput : (change (rt.actors ptr)).outputHeader = (rt.actors ptr).outputHeader) :
    (rt.modifyActor ptr change).bearings = rt.bearings :=
  bearings_of_update ptr rfl hinput houtput rfl rfl

theorem bearings_modifyActor_head (rt : Runtime σ τ) (ptr : ℕ) (change : FlowActor → FlowActor) :
    (rt.modifyActor ptr change).bearings = rt.bearings.head ptr
      ((change (rt.actors ptr)).inputHeader.destRtid, (change (rt.actors ptr)).outputHeader.destRtid) := by
  have hroutes : (rt.modifyActor ptr change).routes = update rt.routes ptr
      ((change (rt.actors ptr)).inputHeader.destRtid, (change (rt.actors ptr)).outputHeader.destRtid) := by
    funext other
    simp only [routes, modifyActor, update_apply]
    split <;> rfl
  rw [bearings, hroutes]
  rfl

theorem bearings_setTimer (rt : Runtime σ τ) (ptr : ℕ) (kind : TimerKind) (timer : ActorTimer) :
    (rt.modifyActor ptr fun actor ↦ actor.setTimer kind timer).bearings = rt.bearings := by
  cases kind <;> exact bearings_modifyActor rt ptr rfl rfl

theorem bearings_invalidate (rt : Runtime σ τ) (ptr : ℕ) (kind : TimerKind) :
    (rt.invalidate ptr kind).bearings = rt.bearings :=
  bearings_setTimer rt ptr kind _

theorem bearings_enter (rt : Runtime σ τ) (ptr : ℕ) (state : FlowState) :
    (rt.enter ptr state).bearings = rt.bearings :=
  bearings_modifyActor rt ptr rfl rfl

theorem bearings_opened (rt : Runtime σ τ) (opening : Opening) :
    (rt.opened opening).bearings = rt.bearings.head opening.ptr
      (opening.inputHeader.destRtid, opening.outputHeader.destRtid) :=
  bearings_modifyActor_head rt opening.ptr fun _ ↦ rt.openedActor opening

theorem bearings_removed (rt : Runtime σ τ) (ptr : ℕ) : (rt.removed ptr).bearings = rt.bearings := by
  unfold removed
  dsimp only
  split
  · rfl
  · rw [deallocate, bearings_modifyActor _ _ rfl rfl]
    exact (bearings_invalidate _ ptr .replication).trans
      ((bearings_invalidate _ ptr .migration).trans (bearings_invalidate _ ptr .idle))

theorem bearings_ran (rt : Runtime σ τ) (ptr : ℕ) (pkt : Packet) : (rt.ran ptr pkt).bearings = rt.bearings :=
  bearings_of_update ptr rfl rfl rfl rfl rfl

theorem bearings_repFsPktMsg {states : ℕ → σ} (h : rt.repFsPktMsg ptr states pkt = some rt') :
    rt'.bearings = rt.bearings := by
  obtain ⟨-, rfl⟩ | ⟨-, rfl⟩ := repFsPktMsg_cases h
  · rfl
  · exact bearings_modifyActor _ ptr rfl rfl

theorem bearings_pktMsg (h : rt.pktMsg env ptr pkt = some rt') : rt'.bearings = rt.bearings := by
  have hcounted : (rt.counted ptr).bearings = rt.bearings := bearings_modifyActor rt ptr rfl rfl
  cases pktMsg_takes h with
  | full => exact hcounted
  | keep => exact (bearings_modifyActor _ ptr rfl rfl).trans hcounted
  | late => rfl
  | emit | replicate => exact bearings_ran rt ptr pkt
  | disconnect => exact (bearings_modifyActor _ ptr rfl rfl).trans (bearings_ran rt ptr pkt)

theorem bearings_replayBuffer (buffer : List (ℕ × Packet)) (h : rt.replayBuffer ptr buffer = some rt') :
    rt'.bearings = rt.bearings := by
  induction buffer generalizing rt with
  | nil =>
    cases h
    exact bearings_modifyActor _ _ rfl rfl
  | cons cell _ ih =>
    obtain ⟨mid, hmid, hrest⟩ := bind_eq_some_iff.1 h
    obtain ⟨_, _, -, rfl⟩ := replayPacket_eq hmid
    exact (ih hrest).trans (bearings_ran rt ptr cell.2)

/-! ## Steps -/

theorem bearings_abandonMigration (rt : Runtime σ τ) (ptr : ℕ) :
    (rt.abandonMigration ptr).bearings = rt.bearings :=
  bearings_of_update ptr rfl rfl rfl rfl rfl

theorem Abandons.bearings (h : rt.Abandons input base ptr) :
    (base.abandonMigration ptr).bearings = rt.bearings := by
  have hbase : base.bearings = rt.bearings := by
    cases h with
    | refuse => rfl
    | _ => exact bearings_invalidate rt ptr .migration
  exact (bearings_abandonMigration base ptr).trans hbase

theorem Prepares.bearings {sent : Bool}
    (h : rt.Prepares input base sent ptr request) : (base.ask sent ptr request).bearings = rt.bearings := by
  have hbase : base.bearings = rt.bearings := by
    cases h with
    | depart => exact bearings_enter (rt.departed ptr) ptr _
    | recover => rfl
    | recoverAgain => exact bearings_invalidate rt ptr .replication
    | _ => exact (bearings_modifyActor _ ptr rfl rfl).trans (bearings_invalidate rt ptr .migration)
  exact (bearings_setTimer _ ptr _ _).trans hbase

theorem Prepares.not_admits {sent : Bool} (h : rt.Prepares input base sent ptr request)
    (key : FlowKey) : ¬rt.ledger.Admits input key := by
  intro hadmits
  cases h <;> cases hadmits <;> exact absurd ‹_ = coordinatorActorId› (And.left ‹rt.ledger.Delivers _ _›)

theorem Abandons.not_admits (h : rt.Abandons input base ptr) (key : FlowKey) :
    ¬rt.ledger.Admits input key := by
  intro hadmits
  cases h <;> cases hadmits <;> exact absurd ‹_ = coordinatorActorId› (And.left ‹rt.ledger.Delivers _ _›)

/-- A message to an actor asks for no actor. -/
theorem Reroute.delivered (hdelivers : rt.ledger.Delivers message ptr)
    (hbearings : rt'.bearings = rt.bearings) : rt.Reroute (.message env senderRtid message) rt' := by
  refine .same hbearings (.inr fun key hadmits ↦ ?_)
  cases hadmits <;> exact absurd ‹_ = coordinatorActorId› hdelivers.1

theorem Opens.founds {opening : Opening} (h : rt.Opens input opening rt') :
    rt.Founds input opening.key (opening.inputHeader.destRtid, opening.outputHeader.destRtid) := by
  cases h with
  | packet env pkt _ _ inputRt _ _ _ hnone hinput => exact .packet env pkt inputRt hnone hinput
  | target env senderRtid message inputHeader outputHeader key _ _ _ _ hrecv hbody =>
    exact .target env senderRtid message inputHeader outputHeader key hrecv hbody
  | replica env senderRtid message inputHeader outputHeader key states pkt _ _ _ _ _ hrecv hbody hnone =>
    exact .replica env senderRtid message inputHeader outputHeader key states pkt hrecv hbody hnone

theorem Opens.bearings {opening : Opening} (h : rt.Opens input opening rt') :
    rt'.bearings = (rt.opened opening).bearings := by
  cases h with
  | packet _ _ _ _ _ _ _ _ _ _ _ hpkt => exact bearings_pktMsg hpkt
  | target => rfl
  | replica _ _ _ _ _ _ _ _ _ _ _ _ _ _ _ _ _ hrep => exact bearings_repFsPktMsg hrep

theorem Rests.not_admits (h : rt.Rests input) : rt.allocator.pop = none ∨ ∀ key, ¬rt.ledger.Admits input key := by
  cases h with
  | refused _ _ _ _ _ _ _ _ hpop => exact .inl hpop
  | pong _ _ _ _ hbody =>
    refine .inr fun key hadmits ↦ ?_
    cases hadmits <;> simp_all
  | unknown _ _ _ hrecv | stale _ _ _ _ _ _ hrecv =>
    refine .inr fun key hadmits ↦ ?_
    cases hadmits <;> exact hrecv ‹_›
  | noMigration | noRecovery => exact .inr fun _ ↦ by rintro ⟨⟩

theorem Tallies.reroute (h : rt.Tallies input rt') : rt.Reroute input rt' := by
  cases h with
  | migrateTo migrationQouta runtimeId =>
    rw [Runtime.migrateTo]
    split
    · next hdone => exact .retarget migrationQouta runtimeId rfl hdone rfl
    · exact .same rfl (.inr (by rintro _ ⟨⟩))
  | recover | addStorage | removeStorage =>
    simp only [Runtime.recover, Runtime.addStorage, Runtime.removeStorage]
    split <;> exact .same rfl (.inr (by rintro _ ⟨⟩))
  | _ => exact .same rfl (.inr (by rintro _ ⟨⟩))

theorem updateRoute_reroute {env' : Environment σ} {newOutputRtId : UInt32} {updated : UInt32 × Runtime σ τ}
    (hrecv : message.recvActorId = coordinatorActorId)
    (hbody : message.body.reroutes = some (key, newOutputRtId))
    (h : rt.updateRoute env key newOutputRtId = some updated) (hafter : rt'.bearings = updated.2.bearings) :
    rt.Reroute (.message env' senderRtid message) rt' := by
  unfold updateRoute at h
  split at h
  · rw [← Option.some.inj h] at hafter
    refine .same hafter (.inr fun key hadmits ↦ ?_)
    cases hadmits <;> simp_all [MessageBody.reroutes]
  · next ptr hentry =>
    obtain ⟨peer, -, rfl⟩ := map_eq_some_iff.1 h
    refine .change env' senderRtid message key newOutputRtId ptr rfl hrecv hbody hentry ?_
    rw [hafter]
    dsimp only
    rw [bearings_modifyActor_head]
    rfl

/-- Headers are written for a new actor, output headers by the two messages that change routes, and the
migration target by a command. -/
theorem step_reroute (h : rt.step input = some rt') : rt.Reroute input rt' := by
  cases step_outcome h with
  | rest _ hrests => exact .same rfl hrests.not_admits
  | tally _ _ htallies => exact htallies.reroute
  | abandon _ _ _ habandons => exact .same habandons.bearings (.inr habandons.not_admits)
  | ask _ _ _ _ _ hprepares => exact .same hprepares.bearings (.inr hprepares.not_admits)
  | newFlow _ opening _ hgrants hopens =>
    exact .found opening.ptr opening.ring opening.key _ hgrants.1 hopens.founds
      (hopens.bearings.trans (bearings_opened rt opening))
  | packet _ _ ptr _ hptr hpkt =>
    refine .same (bearings_pktMsg hpkt) (.inr ?_)
    rintro key (⟨_, _, hnone⟩ | _ | _)
    cases hptr.symm.trans hnone
  | unserved _ _ _ _ hempty hpkt =>
    have hbearings := bearings_pktMsg hpkt
    exact .same hbearings (.inl hempty)
  | ping _ _ _ _ _ hbody =>
    refine .same rfl (.inr fun key hadmits ↦ ?_)
    cases hadmits <;> simp_all
  | route _ _ _ _ _ _ _ _ hrecv hreroutes hupdated =>
    cases hreroutes with
    | migration hbody | recovery hbody => exact updateRoute_reroute hrecv (by rw [hbody]; rfl) hupdated rfl
  | mirror _ _ _ _ _ _ _ _ ptr _ _ hbody hptr hrep =>
    refine .same (bearings_repFsPktMsg hrep) (.inr fun key hadmits ↦ ?_)
    cases hadmits with
    | target _ _ _ _ _ _ _ hcreates => simp [hbody] at hcreates
    | replica _ _ _ _ _ _ _ _ _ hreplicates hnone =>
      rw [hbody] at hreplicates
      obtain ⟨-, -, rfl, -, -⟩ := MessageBody.replication.inj hreplicates
      cases hptr.symm.trans hnone
  | bindDeadend _ _ _ _ _ _ _ _ _ _ _ _ hempty hrep =>
    have hbearings := bearings_repFsPktMsg hrep
    exact .same hbearings (.inl hempty)
  | arrive _ senderRtid message ptr states sent _ hdelivers _ hreplay =>
    have hentered : (rt.arriving sent ptr senderRtid message states).bearings = rt.bearings :=
      bearings_of_update ptr rfl rfl rfl rfl rfl
    exact .delivered hdelivers ((bearings_replayBuffer _ hreplay).trans hentered)
  | complete _ _ _ ptr hdelivers =>
    have hsettled : (rt.settled ptr).bearings = (rt.invalidate ptr .migration).bearings :=
      (bearings_invalidate _ ptr .idle).trans (bearings_of_update ptr rfl rfl rfl rfl rfl)
    exact .delivered hdelivers ((bearings_removed _ ptr).trans (hsettled.trans (bearings_invalidate ..)))
  | recovered _ _ _ ptr _ hdelivers =>
    refine .delivered hdelivers ?_
    rw [← bearings_invalidate rt ptr .replication]
    exact bearings_of_update ptr rfl rfl rfl rfl rfl
  | notRecovered _ ptr =>
    refine .same ?_ (.inr (by rintro _ ⟨⟩))
    rw [← bearings_invalidate rt ptr .replication]
    exact bearings_of_update ptr rfl rfl rfl rfl rfl
  | idleAgain _ ptr =>
    refine .same ?_ (.inr (by rintro _ ⟨⟩))
    exact (bearings_modifyActor _ ptr rfl rfl).trans (bearings_invalidate ..)
  | leave _ ptr =>
    refine .same ((bearings_removed _ ptr).trans ?_) (.inr (by rintro _ ⟨⟩))
    rw [← bearings_invalidate rt ptr .idle, left, drained]
    split
    · exact bearings_of_update ptr rfl rfl rfl rfl rfl
    · rfl

variable (h : rt.Reroute input rt')

include h

/-- A step that gives an actor to a flow writes its headers. -/
theorem Reroute.founded {ring : RingBuffer ℕ} (hpop : rt.allocator.pop = some (ptr, ring))
    (hadmits : rt.ledger.Admits input key) : ∃ key, rt.Founds input key (rt'.routes ptr) := by
  cases h with
  | same _ hnothing =>
    rcases hnothing with hfull | hno
    · cases hfull.symm.trans hpop
    · exact absurd hadmits (hno key)
  | found _ _ key' ends hpop' hfounds hbearings =>
    obtain ⟨rfl, -⟩ := Prod.mk.inj (Option.some.inj (hpop.symm.trans hpop'))
    have hroutes : rt'.routes ptr = ends :=
      (congrFun (congrArg Bearings.routes hbearings) ptr).trans (update_self ..)
    rw [hroutes]
    exact ⟨key', hfounds⟩
  | change _ _ _ _ _ _ hinput _ hbody =>
    subst hinput
    cases hadmits with
    | target _ _ _ _ _ _ _ hcreates => simp [hcreates, MessageBody.reroutes] at hbody
    | replica _ _ _ _ _ _ _ _ _ hreplicates => simp [hreplicates, MessageBody.reroutes] at hbody
  | retarget _ _ hinput =>
    subst hinput
    exact nomatch hadmits

/-- The input header of an actor stays as long as the flow has the actor. -/
theorem Reroute.input_eq (hkept : ∀ ring, rt.allocator.pop ≠ some (ptr, ring)) :
    (rt'.routes ptr).1 = (rt.routes ptr).1 := by
  have hroutes {rt'' : Bearings} (hbearings : rt'.bearings = rt'') : rt'.routes ptr = rt''.routes ptr :=
    congrFun (congrArg Bearings.routes hbearings) ptr
  cases h with
  | same hbearings => rw [hroutes hbearings]; rfl
  | found ptr' ring _ _ hpop _ hbearings =>
    have hne : ptr ≠ ptr' := fun heq ↦ hkept ring (heq ▸ hpop)
    rw [hroutes hbearings, Bearings.routes_head, if_neg hne]
    rfl
  | change _ _ _ _ _ _ _ _ _ _ hbearings =>
    rw [hroutes hbearings, Bearings.routes_head]
    split
    · next heq => rw [heq]
    · rfl
  | retarget _ _ _ _ hbearings => rw [hroutes hbearings]; rfl

theorem Reroute.config_eq : rt'.config = rt.config := by
  cases h with
  | same hbearings | found _ _ _ _ _ _ hbearings | retarget _ _ _ _ hbearings
  | change _ _ _ _ _ _ _ _ _ _ hbearings => exact congrArg Bearings.config hbearings

theorem Reroute.target_eq (hinput : ∀ migrationQouta runtimeId, input ≠ .migrateTo migrationQouta runtimeId) :
    rt'.migration.targetRtId = rt.migration.targetRtId := by
  cases h with
  | same hbearings | found _ _ _ _ _ _ hbearings => exact congrArg Bearings.target hbearings
  | change _ _ _ _ _ _ _ _ _ _ hbearings =>
    exact congrArg Bearings.target hbearings
  | retarget migrationQouta runtimeId heq => exact absurd heq (hinput migrationQouta runtimeId)

end Runtime

end NfvActor.Actor
