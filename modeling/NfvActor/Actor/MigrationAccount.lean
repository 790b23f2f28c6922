import Mathlib.Tactic
import NfvActor.Actor.Awaiting
import NfvActor.Actor.FlowTables

/-!
# Migration accounting

Flows move between the quota, the migrations under way and the three outcomes. The counters add up as long as a
new `migrate_to` waits for the migrations under way: it is accepted as soon as the quota is used up, and sets
`outgoing_migrations_` to zero.
-/

namespace NfvActor.Actor

open NfvActor.Foundation
open NfvActor.Actor.Runtime (deadendFlowActor)
open NfvActor.Reliable (Packet)

theorem toNat_pred {n : UInt64} (h : n ≠ 0) : (n - 1).toNat + 1 = n.toNat := by
  have hpos : n.toNat ≠ 0 := fun hzero ↦ h (UInt64.toNat_inj.1 hzero)
  have hle : (1 : UInt64) ≤ n := UInt64.le_iff_toNat_le.2 (Nat.one_le_iff_ne_zero.2 hpos)
  rw [UInt64.toNat_sub_of_le _ _ hle]
  exact Nat.sub_add_cancel (Nat.one_le_iff_ne_zero.2 hpos)

theorem toNat_succ {n : UInt64} (h : n.toNat + 1 < 2 ^ 64) : (n + 1).toNat = n.toNat + 1 := by
  rw [UInt64.toNat_add]
  exact Nat.mod_eq_of_lt h

namespace MigrationAccount

/-- Every migration of the round is in the quota, under way, or has one of three outcomes. -/
def Adds (account : MigrationAccount) : Prop :=
  account.qouta.toNat + account.outgoing.toNat + account.successful.toNat + account.failed.toNat +
    account.null.toNat = account.total.toNat

namespace Adds

variable {account : MigrationAccount}

variable (h : account.Adds) (hqouta : account.qouta ≠ 0)

include h hqouta

theorem skip : { account with qouta := account.qouta - 1, null := account.null + 1 }.Adds := by
  have hpred := toNat_pred hqouta
  have htotal := account.total.toNat_lt
  unfold Adds at h ⊢
  have hsucc : (account.null + 1).toNat = account.null.toNat + 1 := toNat_succ (by omega)
  dsimp only
  omega

theorem toNat_outgoing_succ : (account.outgoing + 1).toNat = account.outgoing.toNat + 1 := by
  have hpred := toNat_pred hqouta
  have htotal := account.total.toNat_lt
  unfold Adds at h
  exact toNat_succ (by omega)

theorem depart : { account with qouta := account.qouta - 1, outgoing := account.outgoing + 1 }.Adds := by
  have hpred := toNat_pred hqouta
  have hsucc := h.toNat_outgoing_succ hqouta
  unfold Adds at h ⊢
  dsimp only
  omega

omit hqouta

theorem giveUp (houtgoing : account.outgoing ≠ 0) :
    { account with outgoing := account.outgoing - 1, failed := account.failed + 1 }.Adds := by
  have hpred := toNat_pred houtgoing
  have htotal := account.total.toNat_lt
  unfold Adds at h ⊢
  have hsucc : (account.failed + 1).toNat = account.failed.toNat + 1 := toNat_succ (by omega)
  dsimp only
  omega

theorem settle (houtgoing : account.outgoing ≠ 0) :
    { account with outgoing := account.outgoing - 1, successful := account.successful + 1 }.Adds := by
  have hpred := toNat_pred houtgoing
  have htotal := account.total.toNat_lt
  unfold Adds at h ⊢
  have hsucc : (account.successful + 1).toNat = account.successful.toNat + 1 := toNat_succ (by omega)
  dsimp only
  omega

end Adds

end MigrationAccount

namespace Ledger

variable {σ : Type}

/-! ## Counting actors -/

/-- The live actors whose cards pass a test. -/
def census (ledger : Ledger) (test : Card → Bool) : Finset ℕ :=
  ledger.allocator.outstanding.filter fun ptr ↦ test (ledger.cards ptr) = true

variable {ledger : Ledger} {ptr : ℕ}

theorem mem_census {test : Card → Bool} :
    ptr ∈ ledger.census test ↔ ledger.Live ptr ∧ test (ledger.cards ptr) = true :=
  Finset.mem_filter

namespace Alters

variable {ledger ledger' : Ledger} {ptr : ℕ} {test : Card → Bool}

variable (h : ledger.Alters ledger' ptr)

include h

theorem mem_census_iff {other : ℕ} (hne : other ≠ ptr) :
    other ∈ ledger'.census test ↔ other ∈ ledger.census test := by
  rw [mem_census, mem_census, h.live other hne, h.cards other hne]

theorem census_keep (hptr : ptr ∈ ledger'.census test ↔ ptr ∈ ledger.census test) :
    ledger'.census test = ledger.census test := by
  ext other
  by_cases heq : other = ptr
  · rw [heq, hptr]
  · exact h.mem_census_iff heq

theorem card_census_begin (hbefore : ptr ∉ ledger.census test) (hafter : ptr ∈ ledger'.census test) :
    (ledger'.census test).card = (ledger.census test).card + 1 := by
  have hinsert : ledger'.census test = insert ptr (ledger.census test) := by
    ext other
    by_cases heq : other = ptr
    · simp [heq, hafter]
    · rw [h.mem_census_iff heq, Finset.mem_insert, or_iff_right heq]
  rw [hinsert, Finset.card_insert_of_notMem hbefore]

theorem card_census_end (hbefore : ptr ∈ ledger.census test) (hafter : ptr ∉ ledger'.census test) :
    (ledger'.census test).card + 1 = (ledger.census test).card := by
  have herase : ledger'.census test = (ledger.census test).erase ptr := by
    ext other
    by_cases heq : other = ptr
    · simp [heq, hafter]
    · rw [h.mem_census_iff heq, Finset.mem_erase, and_iff_right heq]
  rw [herase, Finset.card_erase_add_one hbefore]

end Alters

/-- The live actors whose flow is being migrated out. -/
def migratingActors (ledger : Ledger) : Finset ℕ :=
  ledger.allocator.outstanding.filter fun ptr ↦ (ledger.cards ptr).currentState.migrating = true

theorem migratingActors_eq (ledger : Ledger) :
    ledger.migratingActors = ledger.census fun card ↦ card.currentState.migrating := rfl

theorem mem_migratingActors : ptr ∈ ledger.migratingActors ↔
    ledger.Live ptr ∧ (ledger.cards ptr).currentState.migrating = true :=
  Finset.mem_filter

theorem not_mem_migratingActors (h : (ledger.cards ptr).currentState.migrating = false) :
    ptr ∉ ledger.migratingActors := by
  rw [mem_migratingActors, h]
  simp

/-- The counters add up, and `outgoing_migrations_` counts the migrating actors. -/
structure Accounted (ledger : Ledger) : Prop where
  outgoing : ledger.migration.outgoing.toNat = ledger.migratingActors.card
  adds : ledger.migration.Adds

/-- Responses carry the id of a request, no flow state arrives at a migrating actor, `coordinator_mp` picks a
live actor that is not migrating, and an accepted `migrate_to` finds no migration under way. -/
structure KeepsAccount (ledger : Ledger) (input : Input σ) : Prop where
  named : RepliesNamed input
  arrives : ∀ ptr, ledger.ArrivesAt ptr input → (ledger.cards ptr).currentState.migrating = false
  departs : ∀ ptr, ledger.Departs ptr input →
    ledger.Live ptr ∧ (ledger.cards ptr).currentState.migrating = false
  settled : ∀ migrationQouta runtimeId, input = .migrateTo migrationQouta runtimeId →
    ledger.migration.qouta = 0 → ledger.migration.outgoing = 0

namespace Accounted

variable {ledger ledger' : Ledger} {ptr : ℕ}

/-- Neither the counters nor the number of migrating actors change. -/
theorem keep (h : ledger.Accounted) (halters : ledger.Alters ledger' ptr)
    (haccount : ledger'.migration = ledger.migration)
    (hptr : ptr ∈ ledger'.migratingActors ↔ ptr ∈ ledger.migratingActors) : ledger'.Accounted := by
  constructor
  · rw [migratingActors_eq, migratingActors_eq] at hptr
    rw [haccount, migratingActors_eq, halters.census_keep hptr]
    exact h.outgoing
  · rw [haccount]
    exact h.adds

theorem of_same (h : ledger.Accounted) (haccount : ledger'.migration = ledger.migration)
    (hcards : ledger'.cards = ledger.cards) (hallocator : ledger'.allocator = ledger.allocator) :
    ledger'.Accounted := by
  have hset : ledger'.migratingActors = ledger.migratingActors := by
    rw [migratingActors, migratingActors, hcards, hallocator]
  constructor
  · rw [haccount, hset]
    exact h.outgoing
  · rw [haccount]
    exact h.adds

/-- The change of a card that leaves the state of the actor alone. -/
theorem modifyCard (h : ledger.Accounted) {change : Card → Card}
    (htouch : ledger.Touches (ledger.modifyCard ptr change) ptr)
    (hstate : (change (ledger.cards ptr)).currentState = (ledger.cards ptr).currentState) :
    (ledger.modifyCard ptr change).Accounted := by
  refine h.keep (.of_touches htouch) rfl ?_
  rw [mem_migratingActors, mem_migratingActors, Ledger.modifyCard, cards_setCard, hstate]
  exact Iff.rfl

variable {state : FlowState}

variable (h : ledger.Accounted)

include h

theorem enroll (hsound : ledger.Sound) {ring : RingBuffer ℕ} (head : ListNode) (key : FlowKey)
    (replication : ReplicationState) (hpop : ledger.allocator.pop = some (ptr, ring))
    (hstate : state.migrating = false) : (ledger.enroll ptr ring head key state replication).Accounted := by
  refine h.keep (.enroll hsound head key state replication hpop) rfl (iff_of_false ?_ ?_)
  · apply not_mem_migratingActors
    rw [cards_enroll, Function.update_self]
    exact hstate
  · rw [mem_migratingActors]
    exact fun hmem ↦ (hsound.pool.pop hpop).2.1 hmem.1

theorem outgoing_ne_zero (hmem : ptr ∈ ledger.migratingActors) : ledger.migration.outgoing ≠ 0 := by
  intro hzero
  have hcard := h.outgoing
  rw [hzero] at hcard
  exact absurd (Finset.card_pos.2 ⟨ptr, hmem⟩) (by rw [← hcard]; decide)

theorem depart (requestMsgId : UInt32) (hqouta : ledger.migration.qouta ≠ 0) (hlive : ledger.Live ptr)
    (hstate : (ledger.cards ptr).currentState.migrating = false) :
    ((ledger.depart ptr).request ptr .migrationSource ⟨requestMsgId, .startMigrationTimeout⟩).Accounted := by
  have halters : ledger.Alters ((ledger.depart ptr).request ptr .migrationSource
      ⟨requestMsgId, .startMigrationTimeout⟩) ptr :=
    .of_touches ((Touches.depart ledger ptr).trans (.request _ ptr _ _))
  have hout : ptr ∉ ledger.census fun card ↦ card.currentState.migrating := not_mem_migratingActors hstate
  constructor
  · rw [migratingActors_eq, halters.card_census_begin hout, ← migratingActors_eq, ← h.outgoing]
    · exact h.adds.toNat_outgoing_succ hqouta
    · rw [mem_census, cards_request]
      exact ⟨hlive, rfl⟩
  · exact h.adds.depart hqouta

/-- `coordinator_mp` takes an actor off the list that refuses to migrate. -/
theorem refuse (hqouta : ledger.migration.qouta ≠ 0)
    (hstate : (ledger.cards ptr).currentState.migrating = false) :
    ((ledger.depart ptr).giveUp ptr).Accounted := by
  have halters : ledger.Alters ((ledger.depart ptr).giveUp ptr) ptr :=
    .of_touches ((Touches.depart ledger ptr).trans (.giveUp _ ptr))
  have hset : ((ledger.depart ptr).giveUp ptr).migratingActors = ledger.migratingActors := by
    rw [migratingActors_eq, migratingActors_eq]
    refine halters.census_keep (iff_of_false ?_ ?_)
    · apply not_mem_migratingActors
      rw [cards_giveUp]
      rfl
    · exact not_mem_migratingActors hstate
  have hsucc := h.adds.toNat_outgoing_succ hqouta
  have hne : ledger.migration.outgoing + 1 ≠ 0 := by
    intro hzero
    rw [hzero] at hsucc
    cases hsucc
  constructor
  · rw [hset, ← h.outgoing]
    have hpred : (ledger.migration.outgoing + 1 - 1).toNat + 1 =
        (ledger.migration.outgoing + 1).toNat := toNat_pred hne
    change (ledger.migration.outgoing + 1 - 1).toNat = ledger.migration.outgoing.toNat
    omega
  · exact (h.adds.depart hqouta).giveUp hne

theorem finish (halters : ledger.Alters ledger' ptr) (hmem : ptr ∈ ledger.migratingActors)
    (hafter : ptr ∉ ledger'.migratingActors)
    (houtgoing : ledger'.migration.outgoing = ledger.migration.outgoing - 1)
    (hadds : ledger.migration.outgoing ≠ 0 → ledger'.migration.Adds) : ledger'.Accounted := by
  have hne := h.outgoing_ne_zero hmem
  refine ⟨?_, hadds hne⟩
  have hpred := toNat_pred hne
  rw [migratingActors_eq] at hmem hafter
  have hcard := halters.card_census_end hmem hafter
  rw [← migratingActors_eq, ← migratingActors_eq] at hcard
  rw [houtgoing]
  have hbefore := h.outgoing
  omega

theorem abandon (hmem : ptr ∈ ledger.migratingActors) :
    ((ledger.disarm ptr .migration).giveUp ptr).Accounted := by
  refine h.finish (.of_touches ((Touches.disarm ledger ptr .migration).trans (.giveUp _ ptr))) hmem ?_ rfl
    h.adds.giveUp
  apply not_mem_migratingActors
  rw [cards_giveUp]
  rfl

theorem complete (hleaves : ledger.Leaves ((ledger.settle ptr).disarm ptr .idle) ptr)
    (hmem : ptr ∈ ledger.migratingActors) : (ledger.complete ptr).Accounted := by
  have haccount : (ledger.complete ptr).migration = (ledger.settle ptr).migration := by
    rw [Ledger.complete, remove_eq _ hleaves.ne_deadend]
    rfl
  refine h.finish hleaves.remove hmem (fun hafter ↦ hleaves.gone (mem_migratingActors.1 hafter).1) ?_ ?_
  · exact congrArg MigrationAccount.outgoing haccount
  · intro hne
    rw [haccount]
    exact h.adds.settle hne

theorem request (timer : ActorTimer) (hmem : ptr ∈ ledger.migratingActors) (hstate : state.migrating = true) :
    (ledger.request ptr state timer).Accounted := by
  refine h.keep (.of_touches (.request ledger ptr state timer)) rfl (iff_of_true ?_ hmem)
  rw [mem_migratingActors, cards_request]
  exact ⟨(mem_migratingActors.1 hmem).1, hstate⟩

omit h

/-- An actor in a state that `check_idle_t` handles is not migrating. -/
theorem not_migrating_of_odd (h : state.code % 2 = 1) : state.migrating = false := by
  cases state <;> simp_all [FlowState.code, FlowState.migrating]

theorem expire (h : ledger.Accounted) (hleaves : ledger.Leaves ((ledger.disarm ptr .idle).release ptr) ptr)
    (hodd : (ledger.cards ptr).currentState.code % 2 = 1) :
    (((ledger.disarm ptr .idle).release ptr).remove ptr).Accounted := by
  refine h.keep hleaves.remove ?_ (iff_of_false ?_ ?_)
  · rw [remove_eq _ hleaves.ne_deadend]
    rfl
  · exact fun hmem ↦ hleaves.gone (mem_migratingActors.1 hmem).1
  · exact not_mem_migratingActors (not_migrating_of_odd hodd)

theorem effect (h : ledger.Accounted) (hsound : ledger.Sound) (hawaiting : ledger.Awaiting) {input : Input σ}
    (hkeeps : ledger.KeepsAccount input) (heffect : ledger.Effect input ledger') : ledger'.Accounted := by
  have hanswered : ∀ ptr, ledger.Answers input ptr .migration → ptr ∈ ledger.migratingActors := by
    intro ptr hanswers
    exact mem_migratingActors.2 (hawaiting ptr (armed_of_answers hsound hkeeps.named hanswers))
  cases heffect with
  | unchanged => exact h
  | dropReplica | idleAgain => exact h.modifyCard (.modifyCard rfl rfl rfl rfl) rfl
  | newFlow _ _ _ _ _ _ hpop => exact h.enroll hsound _ _ _ hpop rfl
  | newTarget _ _ _ _ _ _ _ _ _ _ hpop =>
    exact h.enroll hsound _ _ _ hpop rfl
  | newReplica env senderRtid message inputHeader outputHeader key states pkt ptr ring head hrecv hbody
      hkey hpop =>
    exact h.enroll hsound _ _ _ hpop rfl
  | bindDeadend => exact h.of_same rfl rfl rfl
  | expire _ _ _ harmed htype hodd => exact h.expire (.expire hsound harmed htype) hodd
  | skipMigration _ hqouta => exact ⟨h.outgoing, h.adds.skip hqouta⟩
  | refuse _ ptr hqouta hpeek => exact h.refuse hqouta (hkeeps.departs ptr ⟨hqouta, hpeek⟩).2
  | depart _ ptr requestMsgId hqouta hpeek =>
    obtain ⟨hlive, hstate⟩ := hkeeps.departs ptr ⟨hqouta, hpeek⟩
    exact h.depart requestMsgId hqouta hlive hstate
  | abandon _ ptr hanswers => exact h.abandon (hanswered ptr hanswers)
  | request _ ptr _ timer hanswers hstate =>
    have hmem := hanswered ptr hanswers
    refine h.request timer hmem ?_
    rcases hstate with rfl | rfl | rfl
    · exact (mem_migratingActors.1 hmem).2
    · rfl
    · rfl
  | arrive _ _ _ ptr states hdelivers hbody =>
    have hbefore := hkeeps.arrives ptr ⟨hdelivers, states, hbody⟩
    have hnormal : ((ledger.arrive ptr).cards ptr).currentState = .normalProcessing :=
      congrArg Card.currentState (cards_setCard ledger ptr _)
    refine h.keep (.of_touches (.arrive ledger ptr)) rfl
      (iff_of_false (not_mem_migratingActors ?_) (not_mem_migratingActors hbefore))
    rw [hnormal]
    rfl
  | complete _ _ _ ptr hdelivers hbody =>
    have harmed : (ledger.cards ptr).migrationTimer.Armed := hkeeps.named .migration _ (by rw [hbody]; rfl)
    exact h.complete (.complete hsound hdelivers) (mem_migratingActors.2 (hawaiting ptr harmed))
  | startRecovery _ ptr _ requestMsgId =>
    have hunlinked : (ledger.unlink ptr).Accounted := h.of_same rfl rfl rfl
    have hawaits : ((ledger.unlink ptr).awaitRecovery ptr requestMsgId).Accounted :=
      hunlinked.modifyCard (.awaitRecovery _ ptr requestMsgId) rfl
    exact hawaits.of_same rfl rfl rfl
  | recoveryDone => exact h.of_same rfl rfl rfl
  | retryRecovery _ ptr requestMsgId => exact h.modifyCard (.awaitRecovery ledger ptr requestMsgId) rfl
  | endRecovery _ ptr =>
    have hdisarmed : (ledger.disarm ptr .replication).Accounted :=
      h.modifyCard (.disarm ledger ptr .replication) rfl
    have hdropped : ((ledger.disarm ptr .replication).dropReplica ptr).Accounted :=
      hdisarmed.modifyCard (.modifyCard rfl rfl rfl rfl) rfl
    exact hdropped.of_same rfl rfl rfl
  | migrateTo migrationQouta runtimeId hqouta =>
    have hzero := hkeeps.settled migrationQouta runtimeId rfl hqouta
    have hcard := h.outgoing
    rw [hzero] at hcard
    exact ⟨hcard, by simp [Ledger.migrateTo, MigrationAccount.Adds]⟩
  | recover => exact h.of_same rfl rfl rfl
  | addStorage =>
    unfold addStorage
    split <;> exact h.of_same rfl rfl rfl
  | removeStorage =>
    unfold removeStorage
    split
    · exact h.of_same rfl rfl rfl
    · exact h

end Accounted

/-- A timer never takes a migrating actor back to the allocator. -/
theorem Effect.live_of_fire {ledger' : Ledger} {env : Environment σ} {kind : TimerKind}
    (heffect : ledger.Effect (.fire env ptr kind) ledger') (hlive : ledger.Live ptr)
    (hstate : (ledger.cards ptr).currentState.migrating = true) : ledger'.Live ptr := by
  cases heffect with
  | expire _ _ _ _ _ hodd =>
    rw [Accounted.not_migrating_of_odd hodd] at hstate
    exact absurd hstate (by decide)
  | _ => exact hlive

end Ledger

namespace Runtime

variable {σ τ : Type}

/-- The counters agree with the actors and with each other, and `check_idle_t` removes no migrating actor. -/
structure MigrationsAccounted (rt : Runtime σ τ) : Prop where
  outgoing : rt.migration.outgoing.toNat = (rt.allocator.outstanding.filter fun ptr ↦
    (rt.actors ptr).currentState ∈
      [FlowState.migrationSource, .afterRouteChange, .failureProcessing]).card
  total : rt.migration.qouta.toNat + rt.migration.outgoing.toNat + rt.migration.successful.toNat +
    rt.migration.failed.toNat + rt.migration.null.toNat = rt.migration.total.toNat
  kept : ∀ env ptr kind rt', rt.Allocated ptr →
    (rt.actors ptr).currentState ∈
      [FlowState.migrationSource, .afterRouteChange, .failureProcessing] →
    rt.step (.fire env ptr kind) = some rt' → rt'.Allocated ptr

theorem migrating_iff (state : FlowState) : state.migrating = true ↔
    state ∈ [FlowState.migrationSource, .afterRouteChange, .failureProcessing] := by
  cases state <;> decide

/-- Migrations are accounted for in every run in which a new round waits for those under way and list and ids
are in order. -/
theorem migrations_accounted {rt : Runtime σ τ}
    (hreach : (system σ τ).Reachable (fun rt input ↦ rt.ledger.KeepsAccount input) rt) :
    rt.MigrationsAccounted := by
  have hsound := sound_of_reachable hreach
  have haccounted : rt.ledger.Awaiting ∧ rt.ledger.Accounted := by
    apply @ledger_invariant σ τ _ (fun ledger ↦ ledger.Awaiting ∧ ledger.Accounted) rt hreach
    · intro config serviceChain code zero sharedState
      have hblank := blank_boot config serviceChain code zero sharedState
      refine ⟨?_, ?_, rfl⟩
      · intro ptr harmed
        exact absurd harmed ((hblank ptr).timers .migration)
      · symm
        apply Finset.card_eq_zero.2
        apply Finset.filter_eq_empty_iff.2
        intro ptr _
        rw [(hblank ptr).state]
        decide
    · intro rt input ledger' hsound hboth hkeeps heffect
      exact ⟨hboth.1.effect hsound hkeeps.named hkeeps.arrives hkeeps.departs heffect,
        hboth.2.effect hsound hboth.1 hkeeps heffect⟩
  refine ⟨?_, haccounted.2.adds, ?_⟩
  · simp only [← migrating_iff]
    exact haccounted.2.outgoing
  · intro env ptr kind rt' hlive hstate hstep
    exact (step_effect hsound.blank _ hstep).live_of_fire hlive ((migrating_iff _).2 hstate)

theorem migrations_accounted_under_way : ∃ rt rt' rt'' : Runtime Unit Unit,
    (system Unit Unit).step (smallBoot []) (.migrateTo 1 2) = some rt ∧
      (system Unit Unit).step rt (.packet connected (tcpPacket 7)) = some rt' ∧
      (system Unit Unit).step rt' (.migrationIteration connected) = some rt'' ∧
      rt''.migration.outgoing = 1 ∧ rt''.MigrationsAccounted := by
  obtain ⟨rt, hround, rt', hpacket, rt'', hdepart, hpeek, hstate, hentry, houtgoing⟩ :
      ∃ rt ∈ (system Unit Unit).step (smallBoot []) (.migrateTo 1 2),
      ∃ rt' ∈ (system Unit Unit).step rt (.packet connected (tcpPacket 7)),
      ∃ rt'' ∈ (system Unit Unit).step rt' (.migrationIteration connected),
        rt'.links.peekFirst .activeFlows = some (.actor 1) ∧
          (rt'.actors 1).currentState = .normalProcessing ∧ rt'.actoridHtable 3 = some 1 ∧
          rt''.migration.outgoing = 1 := by decide +kernel
  have hreach : (system Unit Unit).Reachable (fun rt input ↦ rt.ledger.KeepsAccount input) rt' := by
    refine .next (.packet connected (tcpPacket 7)) (.next (.migrateTo 1 2)
      (.start (init_smallBoot [])) ?_ hround) ?_ hpacket
    · exact ⟨trivial, fun _ h ↦ h.elim, fun _ h ↦ h.elim, fun _ _ _ _ ↦ rfl⟩
    · exact ⟨trivial, fun _ h ↦ h.elim, fun _ h ↦ h.elim, by simp⟩
  refine ⟨rt, rt', rt'', hround, hpacket, hdepart, houtgoing, migrations_accounted ?_⟩
  refine .next (.migrationIteration connected) hreach ⟨trivial, fun _ h ↦ h.elim, ?_, by simp⟩ hdepart
  intro ptr hdeparts
  have hptr : some (ListNode.actor 1) = some (.actor ptr) := hpeek.symm.trans hdeparts.2
  simp only [Option.some.injEq, ListNode.actor.injEq] at hptr
  subst hptr
  have hlive := (sound_of_reachable hreach).id_live 3 1 hentry
  exact ⟨hlive, congrArg FlowState.migrating hstate⟩

/-- A second `migrate_to` is accepted during a migration: `outgoing_migrations_` is zero while an actor
migrates, and wraps around when that fails. -/
theorem outgoing_wraps_after_second_round : ∃ rt rt' : Runtime Unit Unit,
    (system Unit Unit).Reachable TransitionSystem.anyStep rt ∧ rt.Allocated 1 ∧
      (rt.actors 1).currentState = .migrationSource ∧ rt.migration.outgoing = 0 ∧
      ¬rt.MigrationsAccounted ∧
      (system Unit Unit).step rt (.fire connected 1 .migration) = some rt' ∧
      rt'.migration.outgoing.toNat = 2 ^ 64 - 1 := by
  obtain ⟨rt, hsteps, rt', hfire, hentry, hstate, houtgoing, hwraps⟩ :
      ∃ rt ∈ (system Unit Unit).run (smallBoot []) [.migrateTo 1 2, .packet connected (tcpPacket 7),
        .migrationIteration connected, .migrateTo 1 2],
      ∃ rt' ∈ (system Unit Unit).step rt (.fire connected 1 .migration), rt.actoridHtable 3 = some 1 ∧
        (rt.actors 1).currentState = .migrationSource ∧ rt.migration.outgoing = 0 ∧
          rt'.migration.outgoing.toNat = 2 ^ 64 - 1 := by decide +kernel
  have hreach := TransitionSystem.Reachable.replay (init_smallBoot []) hsteps
  have hlive : rt.Allocated 1 := (sound_of_reachable hreach).id_live 3 1 hentry
  refine ⟨rt, rt', hreach, hlive, hstate, houtgoing, ?_, hfire, hwraps⟩
  intro haccounted
  have hcount := haccounted.outgoing
  rw [houtgoing] at hcount
  have hnone := Finset.filter_eq_empty_iff.1 (Finset.card_eq_zero.1 hcount.symm) hlive
  rw [hstate] at hnone
  exact hnone (by decide)

end Runtime

end NfvActor.Actor
