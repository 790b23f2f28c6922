import Mathlib.Tactic
import NfvActor.Actor.Awaiting
import NfvActor.Control.References

/-!
# The references of flow actors

A flow actor with a replica holds a reference, and the steps of the runtime take and drop references as the
events of flows do. `start_migration_t` refuses an actor with a replica, so none of them leaves for another
runtime.
-/

namespace NfvActor.Actor.Ledger

variable {σ : Type} {ledger ledger' : Ledger} {input : Input σ} {ptr : ℕ}

/-- The actors that hold a reference to the link of their replica. -/
def holders (ledger : Ledger) : Finset ℕ :=
  ledger.allocator.outstanding.filter fun ptr ↦ (ledger.cards ptr).replicationState = .haveReplica

theorem mem_holders :
    ptr ∈ ledger.holders ↔ ledger.Live ptr ∧ (ledger.cards ptr).replicationState = .haveReplica :=
  Finset.mem_filter

/-- A live actor that waits for an answer in a migration holds no reference. -/
def HoldersStay (ledger : Ledger) : Prop :=
  ∀ ptr, (ledger.cards ptr).migrationTimer.Armed →
    ledger.Live ptr ∧ (ledger.cards ptr).replicationState ≠ .haveReplica

/-- Responses name a request, `coordinator_mp` picks actors in use, and no actor that holds a reference is a
replica that is recovered. -/
structure KeepsHolders (ledger : Ledger) (input : Input σ) : Prop where
  named : RepliesNamed input
  departs : ∀ ptr, ledger.Departs ptr input → ledger.Live ptr
  recovers : ∀ ptr, ledger.Answers input ptr .replication → ptr ∉ ledger.holders

theorem HoldersStay.effect (h : ledger.HoldersStay) (hsound : ledger.Sound) (hkeeps : ledger.KeepsHolders input)
    (heffect : ledger.Effect input ledger') : ledger'.HoldersStay := by
  have halter {other : ℕ} (halters : ledger.Alters ledger' other)
      (hother : (ledger'.cards other).migrationTimer.Armed →
        ledger'.Live other ∧ (ledger'.cards other).replicationState ≠ .haveReplica) : ledger'.HoldersStay := by
    intro ptr harmed
    rcases eq_or_ne ptr other with rfl | hne
    · exact hother harmed
    · rw [halters.cards ptr hne] at harmed ⊢
      rw [halters.live ptr hne]
      exact h ptr harmed
  cases heffect.shift hsound with
  | turn other card halters hallocator hcard hturn =>
    refine halter halters ?_
    rw [hcard, Live, hallocator]
    cases hturn with
    | dropReplica | endRecovery => exact fun harmed ↦ ⟨(h other harmed).1, by simp⟩
    | depart _ hdeparts hreplica => exact fun _ ↦ ⟨hkeeps.departs other hdeparts, hreplica⟩
    | abandon => exact fun harmed ↦ absurd rfl harmed
    | request _ _ hanswers => exact fun _ ↦ h other (armed_of_answers hsound hkeeps.named hanswers)
    | _ => exact h other
  | enroll other _ _ _ hadmitted =>
    refine halter hadmitted.alters fun harmed ↦ absurd ?_ hadmitted.free
    rw [hadmitted.card] at harmed
    exact (h other harmed).1
  | dismiss other hdismissed =>
    exact halter hdismissed.alters fun harmed ↦ absurd harmed (hdismissed.off .migration)

/-- The actors that hold a reference differ by one at most. -/
theorem Alters.holders (h : ledger.Alters ledger' ptr) : ledger'.holders = ledger.holders ∨
    (ptr ∈ ledger'.holders ∧ ptr ∉ ledger.holders ∧ ledger'.holders = insert ptr ledger.holders) ∨
      ptr ∈ ledger.holders ∧ ptr ∉ ledger'.holders ∧ ledger'.holders = ledger.holders.erase ptr := by
  have hset {actors : Finset ℕ} (hptr : ptr ∈ ledger'.holders ↔ ptr ∈ actors)
      (hothers : ∀ other ≠ ptr, other ∈ actors ↔ other ∈ ledger.holders) : ledger'.holders = actors := by
    ext other
    rcases eq_or_ne other ptr with rfl | hne
    · exact hptr
    · rw [hothers other hne, mem_holders, mem_holders, h.live other hne, h.cards other hne]
  by_cases hnew : ptr ∈ ledger'.holders <;> by_cases hold : ptr ∈ ledger.holders
  · exact .inl (hset (iff_of_true hnew hold) fun _ _ ↦ Iff.rfl)
  · refine .inr (.inl ⟨hnew, hold, hset (iff_of_true hnew (Finset.mem_insert_self ..)) fun other hne ↦ ?_⟩)
    exact Finset.mem_insert.trans (or_iff_right hne)
  · refine .inr (.inr ⟨hold, hnew, hset (iff_of_false hnew (Finset.notMem_erase _ _)) fun other hne ↦ ?_⟩)
    exact Finset.mem_erase.trans (and_iff_right hne)
  · exact .inl (hset (iff_of_false hnew hold) fun _ _ ↦ Iff.rfl)

/-- A reference is taken for a new flow that is offered a replica, and dropped by a flow that finds the
connection down or is removed as idle. -/
theorem Effect.holders (heffect : ledger.Effect input ledger') (hsound : ledger.Sound) (hstay : ledger.HoldersStay)
    (hkeeps : ledger.KeepsHolders input) : ledger'.holders = ledger.holders ∨
      (∃ ptr ∉ ledger.holders, ledger'.holders = insert ptr ledger.holders ∧ input.replicaItem.isSome = true) ∨
        ∃ ptr ∈ ledger.holders, ledger'.holders = ledger.holders.erase ptr ∧
          (ledger'.cards ptr = { ledger.cards ptr with replicationState := .noReplica } ∨
            ∃ env kind, input = .fire env ptr kind) := by
  cases heffect.shift hsound with
  | turn ptr card halters hallocator hcard hturn =>
    have hkept : card.replicationState = .haveReplica → (ledger.cards ptr).replicationState = .haveReplica := by
      cases hturn with
      | dropReplica | endRecovery => simp
      | _ => exact id
    have hdropped (hold : ptr ∈ ledger.holders) : card.replicationState = .haveReplica ∨
        card = { ledger.cards ptr with replicationState := .noReplica } := by
      cases hturn with
      | dropReplica => exact .inr rfl
      | endRecovery hanswers => exact absurd hold (hkeeps.recovers ptr hanswers)
      | _ => exact .inl (mem_holders.1 hold).2
    have hlive : ledger'.Live ptr ↔ ledger.Live ptr := by rw [Live, Live, hallocator]
    rw [← hcard] at hkept hdropped
    rcases halters.holders with hsame | ⟨hnew, hold, -⟩ | ⟨hold, hgone, herase⟩
    · exact .inl hsame
    · obtain ⟨hnow, hhave⟩ := mem_holders.1 hnew
      exact absurd (mem_holders.2 ⟨hlive.1 hnow, hkept hhave⟩) hold
    · refine .inr (.inr ⟨ptr, hold, herase, .inl ((hdropped hold).resolve_left fun hhave ↦ ?_)⟩)
      exact hgone (mem_holders.2 ⟨hlive.2 (mem_holders.1 hold).1, hhave⟩)
  | enroll ptr _ _ replication hadmitted =>
    have hfree : ptr ∉ ledger.holders := fun hold ↦ hadmitted.free (mem_holders.1 hold).1
    rcases hadmitted.alters.holders with hsame | ⟨hnew, -, hinsert⟩ | ⟨hold, -, -⟩
    · exact .inl hsame
    · rw [mem_holders, hadmitted.card] at hnew
      exact .inr (.inl ⟨ptr, hfree, hinsert, hadmitted.item hnew.2⟩)
    · exact absurd hold hfree
  | dismiss ptr hdismissed =>
    rcases hdismissed.alters.holders with hsame | ⟨hnew, -, -⟩ | ⟨hold, -, herase⟩
    · exact .inl hsame
    · exact absurd (mem_holders.1 hnew).1 hdismissed.gone
    · refine .inr (.inr ⟨ptr, hold, herase, .inr ?_⟩)
      cases hdismissed.dismisses with
      | idle env _ kind => exact ⟨env, kind, rfl⟩
      | migrated env senderRtid message _ hdelivers hbody =>
        have hanswers : ledger.Answers (.message env senderRtid message) ptr .migration :=
          .response env senderRtid message ptr .migration hdelivers (by rw [hbody]; rfl)
        exact absurd (mem_holders.1 hold).2 (hstay ptr (armed_of_answers hsound hkeeps.named hanswers)).2

end NfvActor.Actor.Ledger

namespace NfvActor.Control

open NfvActor.Foundation
open NfvActor.Actor (Runtime Input Ledger)
open Option (bind_eq_some_iff)

variable {σ τ : Type} {rt rt' : Runtime σ τ} {input : Input σ}

theorem holdersStay_of_reachable
    (hreach : (Runtime.system σ τ).Reachable (fun rt input ↦ rt.ledger.KeepsHolders input) rt) :
    rt.ledger.HoldersStay := by
  apply @Runtime.ledger_invariant σ τ _ Ledger.HoldersStay rt hreach
  · intro config serviceChain code zero sharedState ptr harmed
    exact absurd harmed ((Runtime.blank_boot config serviceChain code zero sharedState ptr).timers .migration)
  · exact fun _ _ _ hsound hstay hkeeps heffect ↦ hstay.effect hsound hkeeps heffect

namespace Worker

variable {worker : Worker}

/-- As many flows of the worker hold a reference as flow actors have a replica. -/
def Follows (worker : Worker) (rt : Runtime σ τ) : Prop :=
  worker.flows.countP Option.isSome = rt.ledger.holders.card

variable {deployment : Deployment} {state : RpcState} (hcounted : worker.Counted state)
  (hlinked : worker.holder.Linked deployment state)

include hcounted hlinked

/-- A flow that is given a replica takes a reference. -/
theorem exists_create (hreplicas : worker.replicasRrlist ≠ []) : ∃ worker', worker.runFlow .create = some worker' ∧
    worker'.flows.countP Option.isSome = worker.flows.countP Option.isSome + 1 := by
  obtain ⟨runtimeId, others, hlist⟩ := List.exists_cons_of_ne_nil hreplicas
  obtain ⟨_, peer, hlookup, rfl⟩ := hcounted.replicas.2 _ (hlist ▸ List.mem_cons_self)
  obtain ⟨ptr, hptr⟩ := hcounted.held rfl hlookup
  obtain ⟨link, hlink, -⟩ := hlinked.entry hptr
  have hinc : worker.holder.incRefCnt ptr = some (worker.holder.recounted ptr link 1) :=
    ReliablesHolder.addRefCnt_eq_some.2 ⟨link, hlink, rfl⟩
  refine ⟨{ worker with
    holder := worker.holder.recounted ptr link 1
    replicasRrlist := others ++ [peer.val.runtimeId]
    flows := worker.flows ++ [some ptr] }, ?_, by simp⟩
  simp only [runFlow, createFlow, hlist, hptr, hinc, Option.bind_eq_bind, Option.bind_some]

omit hlinked

theorem exists_drop (hheld : 0 < worker.flows.countP Option.isSome) : ∃ flow,
    (∃ worker', worker.runFlow (.idle flow) = some worker' ∧
      worker'.flows.countP Option.isSome + 1 = worker.flows.countP Option.isSome) ∧
    ∃ worker', worker.runFlow (.connectionDown flow) = some worker' ∧
      worker'.flows.countP Option.isSome + 1 = worker.flows.countP Option.isSome := by
  obtain ⟨entry, hmem, hsome⟩ := List.countP_pos_iff.1 hheld
  obtain ⟨ptr, rfl⟩ := Option.isSome_iff_exists.1 hsome
  obtain ⟨flow, hbound, hflow⟩ := List.getElem_of_mem hmem
  obtain ⟨_, link, -, hlink, -⟩ := hcounted.flow hmem
  have hdec : worker.holder.decRefCnt ptr = some (worker.holder.recounted ptr link (-1)) :=
    ReliablesHolder.addRefCnt_eq_some.2 ⟨link, hlink, rfl⟩
  have hfound : worker.flows[flow]? = some (some ptr) := List.getElem?_eq_some_iff.2 ⟨hbound, hflow⟩
  have hcount := (List.getElem_cons_eraseIdx_perm hbound).countP_eq Option.isSome
  rw [hflow, List.countP_cons_of_pos rfl] at hcount
  refine ⟨flow, ⟨{ worker with
    holder := worker.holder.recounted ptr link (-1)
    flows := worker.flows.eraseIdx flow }, ?_, hcount⟩, { worker with
    holder := worker.holder.recounted ptr link (-1)
    flows := worker.flows.set flow none }, ?_, ?_⟩
  · simp only [runFlow, removeIdleFlow, hfound, hdec, Option.bind_eq_bind, Option.bind_some]
  · simp only [runFlow, loseConnection, hfound, hdec, Option.bind_eq_bind, Option.bind_some]
  · rw [← hcount, (List.set_perm_cons_eraseIdx hbound none).countP_eq]
    rfl

include hlinked

/-- The steps of the flow actors take and drop references as events of flows do, and no migration does. -/
theorem Follows.step (hfollows : worker.Follows rt)
    (hreach : (Runtime.system σ τ).Reachable (fun rt input ↦ rt.ledger.KeepsHolders input) rt)
    (hkeeps : rt.ledger.KeepsHolders input) (hitem : input.replicaItem.isSome = true → worker.replicasRrlist ≠ [])
    (hstep : rt.step input = some rt') : ∃ worker' : Worker, worker'.Follows rt' ∧
      (worker' = worker ∨ ∃ event, worker.runFlow event = some worker' ∧ ∀ flow, event ≠ .migrateOut flow) := by
  have hsound := Runtime.sound_of_reachable hreach
  have heffect := Runtime.step_effect hsound.blank input hstep
  rcases heffect.holders hsound (holdersStay_of_reachable hreach) hkeeps with
    hsame | ⟨ptr, hnew, hinsert, hoffered⟩ | ⟨ptr, hold, herase, hevent⟩
  · exact ⟨worker, by rw [Follows, hsame, hfollows], .inl rfl⟩
  · obtain ⟨worker', hrun, hcount⟩ := exists_create hcounted hlinked (hitem hoffered)
    refine ⟨worker', ?_, .inr ⟨.create, hrun, nofun⟩⟩
    rw [Follows, hcount, hfollows, hinsert, Finset.card_insert_of_notMem hnew]
  · have hcard := Finset.card_erase_add_one hold
    rw [← herase, ← hfollows] at hcard
    obtain ⟨flow, ⟨idle, hidle, hleft⟩, down, hdown, hleft'⟩ := exists_drop hcounted (by omega)
    rcases hevent with - | -
    · exact ⟨down, by rw [Follows]; omega, .inr ⟨.connectionDown flow, hdown, nofun⟩⟩
    · exact ⟨idle, by rw [Follows]; omega, .inr ⟨.idle flow, hidle, nofun⟩⟩

end Worker

end NfvActor.Control
