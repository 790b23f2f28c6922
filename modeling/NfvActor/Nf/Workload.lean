import Mathlib.Tactic
import NfvActor.Actor.MigrationAccount
import NfvActor.Actor.Changes
import NfvActor.Nf.LoadBalancer

/-!
# The workload of the servers

The load balancer counts, for every server, the flows that are directed to it. A first packet and a flow that
arrives have to meet an actor without a server, and a flow that leaves has to be counted. Replicas are not
counted, and `check_idle_t`, `replica_recover_timeout_t` and `migrate_flow_state_t` do not ask whether the actor
is one.
-/

namespace NfvActor.Nf

open NfvActor.Foundation
open NfvActor.Actor
open NfvActor.Reliable (Packet)
open Function
open Option (bind_eq_some_iff map_eq_some_iff)

/-- The workload of every server is the given number, unless the state was lost in a fault. -/
def Tallies (shared : Option LoadBalancerSharedState) (count : ℕ → ℕ) : Prop :=
  ∀ state, shared = some state → ∀ server workload,
    state.serverWorkload[server]? = some workload → workload.toNat = count server

/-- One for the server at the position, zero for all others. -/
def unit (serverPos : ℤ) (server : ℕ) : ℕ := if serverPos = server then 1 else 0

theorem unit_of_new {serverPos : ℤ} (h : serverPos = -1) (server : ℕ) : unit serverPos server = 0 :=
  if_neg (by omega)

theorem unit_le_one (serverPos : ℤ) (server : ℕ) : unit serverPos server ≤ 1 := by
  unfold unit
  split <;> omega

theorem getElem?_modifyWorkload {shared shared' : LoadBalancerSharedState} {serverPos : ℤ}
    {change : UInt64 → UInt64} (h : shared.modifyWorkload serverPos change = some shared') (server : ℕ) :
    shared'.serverWorkload[server]? = (shared.serverWorkload[server]?).map fun workload ↦
      if serverPos = server then change workload else workload := by
  obtain ⟨position, hindex, rfl⟩ := map_eq_some_iff.1 h
  have hposition : serverPos = position := by
    unfold LoadBalancerSharedState.index at hindex
    split at hindex
    · next hrange =>
      rw [← Option.some.inj hindex, Int.toNat_of_nonneg hrange.1]
    · cases hindex
  rw [List.getElem?_modify, hposition]
  simp only [Nat.cast_inj]
  rfl

namespace Tallies

variable {shared shared' : LoadBalancerSharedState} {count : ℕ → ℕ} {serverPos : ℤ}

theorem none (count : ℕ → ℕ) : Tallies none count := by
  intro state hstate
  cases hstate

theorem congr {shared : Option LoadBalancerSharedState} {count' : ℕ → ℕ} (h : Tallies shared count)
    (hcount : ∀ server, count server = count' server) : Tallies shared count' := by
  intro state hstate server workload hworkload
  rw [h state hstate server workload hworkload, hcount]

theorem add (h : Tallies (some shared) count) (hroom : ∀ server, count server ≤ numFlowActors)
    (hadd : shared.addServerWorkload serverPos = some shared') :
    Tallies (some shared') fun server ↦ count server + unit serverPos server := by
  intro state hstate server workload hworkload
  cases hstate
  rw [getElem?_modifyWorkload hadd] at hworkload
  obtain ⟨before, hbefore, rfl⟩ := map_eq_some_iff.1 hworkload
  have hcount := h _ rfl server before hbefore
  have hlt : before.toNat + 1 < 2 ^ 64 := by
    have hle := hroom server
    unfold numFlowActors at hle
    omega
  change _ = count server + unit serverPos server
  by_cases heq : serverPos = server
  · rw [if_pos heq, UInt64.toNat_add, UInt64.toNat_one, Nat.mod_eq_of_lt hlt, hcount, unit, if_pos heq]
  · rw [if_neg heq, hcount, unit, if_neg heq, Nat.add_zero]

/-- The guard of `decrease_server_workload` does not apply to a server with a flow. -/
theorem decrease (h : Tallies (some shared) fun server ↦ count server + unit serverPos server)
    (hdecrease : shared.decreaseServerWorkload serverPos = some shared') : Tallies (some shared') count := by
  intro state hstate server workload hworkload
  cases hstate
  rw [getElem?_modifyWorkload hdecrease] at hworkload
  obtain ⟨before, hbefore, rfl⟩ := map_eq_some_iff.1 hworkload
  have hcount : before.toNat = count server + unit serverPos server := h _ rfl server before hbefore
  by_cases heq : serverPos = server
  · rw [unit, if_pos heq] at hcount
    have hpos : (0 : UInt64) < before := by
      rw [UInt64.lt_iff_toNat_lt, hcount, UInt64.toNat_zero]
      exact Nat.succ_pos _
    have hone : (1 : UInt64) ≤ before := by
      rw [UInt64.le_iff_toNat_le, hcount, UInt64.toNat_one]
      exact Nat.le_add_left 1 _
    rw [if_pos heq, if_pos hpos, UInt64.toNat_sub_of_le _ _ hone, hcount, UInt64.toNat_one]
    exact Nat.add_sub_cancel _ 1
  · rw [if_neg heq, hcount, unit, if_neg heq, Nat.add_zero]

end Tallies

section Entries

variable {shared : Option LoadBalancerSharedState} {fs : LoadBalancerFs} {count : ℕ → ℕ}

/-- A packet counts its flow if it binds it. -/
theorem tallies_nfLogic (pkt : Packet) (hroom : ∀ server, count server ≤ numFlowActors)
    (h : Tallies shared fun server ↦ count server + unit fs.serverPos server) :
    Tallies (loadBalancer.nfLogic pkt fs shared).2.2.2 fun server ↦
      count server + unit (loadBalancer.nfLogic pkt fs shared).2.2.1.serverPos server := by
  cases hresult : shared.bind (LoadBalancer.nfLogicImpl pkt fs) with
  | none =>
    simp only [loadBalancer, hresult]
    exact .none _
  | some =>
    obtain ⟨state, rfl, hlogic⟩ := bind_eq_some_iff.1 hresult
    simp only [loadBalancer, hresult]
    by_cases hnew : fs.serverPos = -1
    · have hbefore : Tallies (some state) count := h.congr fun server ↦ by rw [unit_of_new hnew, Nat.add_zero]
      exact hbefore.add hroom (LoadBalancer.nfLogicImpl_new hnew hlogic).2
    · rw [LoadBalancer.nfLogicImpl, if_neg hnew] at hlogic
      cases hlogic
      exact h

theorem nfLogic_of_bound (pkt : Packet) (shared : Option LoadBalancerSharedState)
    (hbound : fs.serverPos ≠ -1) : (loadBalancer.nfLogic pkt fs shared).2.2.2 = shared := by
  cases shared with
  | none => rfl
  | some => simp [loadBalancer, LoadBalancer.nfLogicImpl, hbound]

theorem tallies_nfFlowArrive (fs : LoadBalancerFs) (status : ArriveStatus)
    (hroom : ∀ server, count server ≤ numFlowActors)
    (h : Tallies shared count) : Tallies (loadBalancer.nfFlowArrive fs shared status).2 fun server ↦
      count server + unit fs.serverPos server := by
  cases hresult : shared.bind (LoadBalancer.nfFlowArriveImpl fs) with
  | none =>
    simp only [loadBalancer, hresult]
    exact .none _
  | some =>
    obtain ⟨state, rfl, harrive⟩ := bind_eq_some_iff.1 hresult
    simp only [loadBalancer, hresult]
    unfold LoadBalancer.nfFlowArriveImpl at harrive
    split at harrive
    · next hnew =>
      cases harrive
      exact h.congr fun server ↦ by rw [unit_of_new hnew, Nat.add_zero]
    · exact h.add hroom harrive

theorem tallies_nfFlowLeave (status : LeaveStatus)
    (h : Tallies shared fun server ↦ count server + unit fs.serverPos server) :
    Tallies (loadBalancer.nfFlowLeave fs shared status).2 count := by
  cases hresult : shared.bind (LoadBalancer.nfFlowLeaveImpl fs) with
  | none =>
    simp only [loadBalancer, hresult]
    exact .none _
  | some =>
    obtain ⟨state, rfl, hleave⟩ := bind_eq_some_iff.1 hresult
    simp only [loadBalancer, hresult]
    unfold LoadBalancer.nfFlowLeaveImpl at hleave
    split at hleave
    · next hnew =>
      cases hleave
      exact h.congr fun server ↦ by rw [unit_of_new hnew, Nat.add_zero]
    · exact h.decrease hleave

end Entries

/-- Where the load balancer is in the chain, and how its states are stored. -/
structure Balancer (σ τ : Type) where
  nf : ℕ
  fs : σ → LoadBalancerFs
  ss : τ → Option LoadBalancerSharedState

namespace Balancer

variable {σ τ : Type} (balancer : Balancer σ τ)

/-- The code is that of the load balancer. -/
structure Runs (code : NetworkFunction σ τ) : Prop where
  logic : ∀ pkt state shared,
    balancer.fs (code.nfLogic pkt state shared).2.2.1 =
        (loadBalancer.nfLogic pkt (balancer.fs state) (balancer.ss shared)).2.2.1 ∧
      balancer.ss (code.nfLogic pkt state shared).2.2.2 =
        (loadBalancer.nfLogic pkt (balancer.fs state) (balancer.ss shared)).2.2.2
  arrive : ∀ state shared status,
    balancer.fs (code.nfFlowArrive state shared status).1 = balancer.fs state ∧
      balancer.ss (code.nfFlowArrive state shared status).2 =
        (loadBalancer.nfFlowArrive (balancer.fs state) (balancer.ss shared) status).2
  leave : ∀ state shared status, balancer.ss (code.nfFlowLeave state shared status).2 =
    (loadBalancer.nfFlowLeave (balancer.fs state) (balancer.ss shared) status).2
  init : ∀ state, (balancer.fs (code.nfInitFs state)).serverPos = -1

/-- How many flow states of the load balancer are directed to a server. -/
def assigned (held : Holding σ) (server : ℕ) : ℕ :=
  held.countP fun entry ↦ entry.1 = balancer.nf ∧ (balancer.fs entry.2).serverPos = server

/-- How many flow states of the load balancer there are. -/
def slots (held : Holding σ) : ℕ := (held.map Prod.fst).count balancer.nf

/-- No flow state of the load balancer has a server. -/
def Unbound (held : Holding σ) : Prop :=
  ∀ entry ∈ held, entry.1 = balancer.nf → (balancer.fs entry.2).serverPos = -1

/-- Every flow state of the load balancer has a server. -/
def Bound (held : Holding σ) : Prop :=
  ∀ entry ∈ held, entry.1 = balancer.nf → (balancer.fs entry.2).serverPos ≠ -1

variable {balancer}

theorem assigned_cons_self (state : σ) (rest : Holding σ) (server : ℕ) :
    balancer.assigned ((balancer.nf, state) :: rest) server =
      balancer.assigned rest server + unit (balancer.fs state).serverPos server := by
  simp [assigned, List.countP_cons, unit]

theorem assigned_cons_of_ne {nf : ℕ} (hnf : nf ≠ balancer.nf) (state : σ) (rest : Holding σ)
    (server : ℕ) : balancer.assigned ((nf, state) :: rest) server = balancer.assigned rest server := by
  simp [assigned, hnf]

theorem slots_cons_self (state : σ) (rest : Holding σ) :
    balancer.slots ((balancer.nf, state) :: rest) = balancer.slots rest + 1 := by
  simp [slots]

theorem slots_cons_of_ne {nf : ℕ} (hnf : nf ≠ balancer.nf) (state : σ) (rest : Holding σ) :
    balancer.slots ((nf, state) :: rest) = balancer.slots rest := by
  simp [slots, hnf]

theorem assigned_le_slots (balancer : Balancer σ τ) (held : Holding σ) (server : ℕ) :
    balancer.assigned held server ≤ balancer.slots held := by
  rw [assigned, slots, List.count, List.countP_map]
  refine List.countP_mono_left fun entry _ hentry ↦ ?_
  simp only [decide_eq_true_eq] at hentry
  simpa using hentry.1

theorem Unbound.assigned {held : Holding σ} (h : balancer.Unbound held) (server : ℕ) :
    balancer.assigned held server = 0 := by
  rw [Balancer.assigned, List.countP_eq_zero]
  intro entry hmem hentry
  simp only [decide_eq_true_eq] at hentry
  have hnew := h entry hmem hentry.1
  omega

variable {code : ℕ → NetworkFunction σ τ} {rt rt' : Runtime σ τ} {env : Environment σ} {input : Input σ}
  {kind : TimerKind}

section

variable (hruns : balancer.Runs (code balancer.nf))

include hruns

theorem tallies_run (held : Holding σ) (pkt : Packet) (shared : ℕ → τ) (count : ℕ → ℕ)
    (hroom : ∀ server, count server + balancer.slots held ≤ numFlowActors)
    (h : Tallies (balancer.ss (shared balancer.nf)) fun server ↦ count server + balancer.assigned held server) :
    Tallies (balancer.ss ((Holding.run code held pkt shared).2.2.2 balancer.nf)) fun server ↦
      count server + balancer.assigned (Holding.run code held pkt shared).2.2.1 server := by
  induction held generalizing pkt shared count with
  | nil => exact h
  | cons entry rest ih =>
    obtain ⟨nf, state⟩ := entry
    by_cases hnf : nf = balancer.nf
    · subst hnf
      have hrest : ∀ server, count server + balancer.assigned rest server ≤ numFlowActors := by
        intro server
        have hle := hroom server
        have hslots := balancer.assigned_le_slots rest server
        rw [slots_cons_self] at hle
        omega
      have hlogic := tallies_nfLogic pkt hrest (h.congr fun server ↦ by rw [assigned_cons_self, Nat.add_assoc])
      obtain ⟨hfs, hss⟩ := hruns.logic pkt state (shared balancer.nf)
      rw [← hfs, ← hss] at hlogic
      simp only [Holding.run]
      generalize (code balancer.nf).nfLogic pkt state (shared balancer.nf) = result at hlogic ⊢
      split
      · have hnext := ih result.2.1 (update shared balancer.nf result.2.2.2)
          (fun server ↦ count server + unit (balancer.fs result.2.2.1).serverPos server) ?_ ?_
        · exact hnext.congr fun server ↦ by rw [assigned_cons_self]; omega
        · intro server
          have hle := hroom server
          have hunit := unit_le_one (balancer.fs result.2.2.1).serverPos server
          rw [slots_cons_self] at hle
          omega
        · rw [update_self]
          exact hlogic.congr fun server ↦ by omega
      · simp only [update_self]
        exact hlogic.congr fun server ↦ by rw [assigned_cons_self, Nat.add_assoc]
    · simp only [slots_cons_of_ne hnf] at hroom
      simp only [assigned_cons_of_ne hnf] at h
      simp only [Holding.run]
      generalize (code nf).nfLogic pkt state (shared nf) = result
      have hsame : update shared nf result.2.2.2 balancer.nf = shared balancer.nf :=
        update_of_ne (Ne.symm hnf) _ _
      split
      · simp only [assigned_cons_of_ne hnf]
        exact ih result.2.1 _ count hroom (hsame.symm ▸ h)
      · simp only [assigned_cons_of_ne hnf, hsame]
        exact h

/-- A packet of a flow that has its servers does not touch the workloads. -/
theorem run_of_bound (held : Holding σ) (pkt : Packet) (shared : ℕ → τ) (hbound : balancer.Bound held) :
    balancer.ss ((Holding.run code held pkt shared).2.2.2 balancer.nf) = balancer.ss (shared balancer.nf) := by
  induction held generalizing pkt shared with
  | nil => rfl
  | cons entry rest ih =>
    obtain ⟨nf, state⟩ := entry
    have hrest : balancer.Bound rest := fun other hmem ↦ hbound other (List.mem_cons_of_mem _ hmem)
    have hstep : balancer.ss (update shared nf
        ((code nf).nfLogic pkt state (shared nf)).2.2.2 balancer.nf) = balancer.ss (shared balancer.nf) := by
      by_cases hnf : nf = balancer.nf
      · subst hnf
        rw [update_self, (hruns.logic pkt state _).2]
        exact nfLogic_of_bound pkt _ (hbound _ List.mem_cons_self rfl)
      · rw [update_of_ne (Ne.symm hnf)]
    simp only [Holding.run]
    split
    · exact (ih _ _ hrest).trans hstep
    · exact hstep

theorem tallies_arrive (status : ArriveStatus) (held : Holding σ) (shared : ℕ → τ) (count : ℕ → ℕ)
    (hroom : ∀ server, count server + balancer.slots held ≤ numFlowActors)
    (h : Tallies (balancer.ss (shared balancer.nf)) count) :
    Tallies (balancer.ss ((Holding.each (fun code state shared ↦ code.nfFlowArrive state shared status)
        code held shared).2 balancer.nf)) fun server ↦
      count server + balancer.assigned (Holding.each (fun code state shared ↦
        code.nfFlowArrive state shared status) code held shared).1 server := by
  induction held generalizing shared count with
  | nil => exact h
  | cons entry _ ih =>
    obtain ⟨nf, state⟩ := entry
    simp only [Holding.each]
    by_cases hnf : nf = balancer.nf
    · subst hnf
      obtain ⟨hfs, hss⟩ := hruns.arrive state (shared balancer.nf) status
      have harrive := tallies_nfFlowArrive (balancer.fs state) status
        (fun server ↦ (Nat.le_add_right _ _).trans (hroom server)) h
      rw [← hss, ← hfs] at harrive
      generalize (code balancer.nf).nfFlowArrive state (shared balancer.nf) status = result at harrive ⊢
      have hnext := ih (update shared balancer.nf result.2)
        (fun server ↦ count server + unit (balancer.fs result.1).serverPos server) ?_ ?_
      · exact hnext.congr fun server ↦ by rw [assigned_cons_self]; omega
      · intro server
        have hle := hroom server
        have hunit := unit_le_one (balancer.fs result.1).serverPos server
        rw [slots_cons_self] at hle
        omega
      · rw [update_self]
        exact harrive
    · simp only [slots_cons_of_ne hnf] at hroom
      simp only [assigned_cons_of_ne hnf]
      refine ih _ count hroom ?_
      rw [update_of_ne (Ne.symm hnf)]
      exact h

/-- The flow states of a flow that leaves are counted no more. -/
theorem tallies_leave (status : LeaveStatus) (held : Holding σ) (shared : ℕ → τ) (count : ℕ → ℕ)
    (h : Tallies (balancer.ss (shared balancer.nf)) fun server ↦ count server + balancer.assigned held server) :
    Tallies (balancer.ss ((Holding.each (fun code state shared ↦ code.nfFlowLeave state shared status)
      code held shared).2 balancer.nf)) count := by
  induction held generalizing shared with
  | nil => exact h
  | cons entry _ ih =>
    obtain ⟨nf, state⟩ := entry
    simp only [Holding.each]
    apply ih
    by_cases hnf : nf = balancer.nf
    · subst hnf
      rw [update_self, hruns.leave]
      exact tallies_nfFlowLeave status (h.congr fun server ↦ by rw [assigned_cons_self, Nat.add_assoc])
    · rw [update_of_ne (Ne.symm hnf)]
      exact h.congr fun server ↦ by rw [assigned_cons_of_ne hnf]

end

theorem slots_run (code : ℕ → NetworkFunction σ τ) (held : Holding σ) (pkt : Packet) (shared : ℕ → τ) :
    balancer.slots (Holding.run code held pkt shared).2.2.1 = balancer.slots held := by
  rw [slots, Holding.map_fst_run, slots]

theorem slots_each (entry : NetworkFunction σ τ → σ → τ → σ × τ) (code : ℕ → NetworkFunction σ τ)
    (held : Holding σ) (shared : ℕ → τ) :
    balancer.slots (Holding.each entry code held shared).1 = balancer.slots held := by
  rw [slots, Holding.map_fst_each, slots]

theorem Runs.unbound (hruns : balancer.Runs (code balancer.nf)) {held : Holding σ}
    (hinitial : held.Initial code) : balancer.Unbound held := by
  intro entry hmem hnf
  obtain ⟨garbage, hentry⟩ := hinitial entry hmem
  rw [hentry, hnf]
  exact hruns.init garbage

/-- The buffered packets count the flow states that they bind. -/
theorem tallies_replay (hruns : balancer.Runs (code balancer.nf)) (contents : Contents σ τ) (ptr : ℕ)
    (count : ℕ → ℕ) (hroom : ∀ server, count server + balancer.slots (contents.held ptr) ≤ numFlowActors)
    (h : Tallies (balancer.ss (contents.shared balancer.nf)) fun server ↦
      count server + balancer.assigned (contents.held ptr) server) :
    Tallies (balancer.ss ((contents.replay code ptr).shared balancer.nf)) fun server ↦
      count server + balancer.assigned ((contents.replay code ptr).held ptr) server := by
  rw [Contents.replay, Contents.held_put, Contents.shared_put]
  generalize contents.buffers ptr = pkts
  induction pkts generalizing contents with
  | nil => exact h
  | cons pkt _ ih =>
    rw [List.foldl_cons]
    refine ih _ ?_ ?_
    · rw [Contents.held_process, slots_run]
      exact hroom
    · rw [Contents.held_process]
      exact tallies_run hruns _ pkt _ count hroom h

theorem slots_replay (code : ℕ → NetworkFunction σ τ) (contents : Contents σ τ) (ptr : ℕ) :
    balancer.slots ((contents.replay code ptr).held ptr) = balancer.slots (contents.held ptr) := by
  rw [Contents.replay, Contents.held_put]
  generalize contents.buffers ptr = pkts
  induction pkts generalizing contents with
  | nil => rfl
  | cons pkt _ ih =>
    rw [List.foldl_cons, ih, Contents.held_process, slots_run]

/-! ## The flows of a runtime -/

/-- The actor is not a replica. -/
def primary (card : Card) : Bool := decide (card.replicationState ≠ .isReplica)

variable (balancer) in
/-- How many flow states of live actors that are not replicas are directed to a server. -/
def tally (ledger : Ledger) (held : ℕ → Holding σ) (server : ℕ) : ℕ :=
  ∑ ptr ∈ ledger.census primary, balancer.assigned (held ptr) server

variable (balancer) in
/-- What one actor contributes. -/
def share (ledger : Ledger) (held : ℕ → Holding σ) (ptr server : ℕ) : ℕ :=
  if ptr ∈ ledger.census primary then balancer.assigned (held ptr) server else 0

variable (balancer) in
/-- The workloads are right. -/
def Counted (ledger : Ledger) (contents : Contents σ τ) : Prop :=
  Tallies (balancer.ss (contents.shared balancer.nf)) (balancer.tally ledger contents.held)

variable (balancer) in
/-- There are at most as many flow states of the load balancer as slots. -/
def Roomy (ledger : Ledger) (held : ℕ → Holding σ) : Prop :=
  ∑ ptr ∈ ledger.allocator.outstanding, balancer.slots (held ptr) ≤ numFlowActors

variable {ledger ledger' : Ledger} {held held' : ℕ → Holding σ} {contents contents' : Contents σ τ}
  {ptr : ℕ}

theorem tally_eq (ledger : Ledger) (held : ℕ → Holding σ) (ptr server : ℕ) :
    balancer.tally ledger held server =
      ∑ other ∈ (ledger.census primary).erase ptr, balancer.assigned (held other) server +
        balancer.share ledger held ptr server := by
  rw [tally, share]
  split
  · next hmem => rw [Finset.sum_erase_add _ _ hmem]
  · next hnot => rw [Finset.erase_eq_of_notMem hnot, Nat.add_zero]

theorem Roomy.others (h : balancer.Roomy ledger held) (hlive : ledger.Live ptr) (server : ℕ) :
    ∑ other ∈ (ledger.census primary).erase ptr, balancer.assigned (held other) server +
      balancer.slots (held ptr) ≤ numFlowActors := by
  have hsub : (ledger.census primary).erase ptr ⊆ ledger.allocator.outstanding.erase ptr :=
    Finset.erase_subset_erase _ (Finset.filter_subset _ _)
  calc ∑ other ∈ (ledger.census primary).erase ptr, balancer.assigned (held other) server +
        balancer.slots (held ptr)
      ≤ ∑ other ∈ ledger.allocator.outstanding.erase ptr, balancer.slots (held other) +
          balancer.slots (held ptr) := by
        gcongr with other
        refine (Finset.sum_le_sum_of_subset hsub).trans ?_
        exact Finset.sum_le_sum fun other _ ↦ balancer.assigned_le_slots (held other) server
    _ = ∑ other ∈ ledger.allocator.outstanding, balancer.slots (held other) := Finset.sum_erase_add _ _ hlive
    _ ≤ numFlowActors := h

/-- A step on one actor keeps the count if the workloads follow what the actor contributes. -/
theorem Counted.alter (h : balancer.Counted ledger contents) (halters : ledger.Alters ledger' ptr)
    (hheld : ∀ other, other ≠ ptr → contents'.held other = contents.held other)
    (hroom : balancer.Roomy ledger' contents'.held) (hmoves : ∀ count : ℕ → ℕ,
      (ledger'.Live ptr → ∀ server, count server + balancer.slots (contents'.held ptr) ≤ numFlowActors) →
      (Tallies (balancer.ss (contents.shared balancer.nf)) fun server ↦
        count server + balancer.share ledger contents.held ptr server) →
      Tallies (balancer.ss (contents'.shared balancer.nf)) fun server ↦
        count server + balancer.share ledger' contents'.held ptr server) :
    balancer.Counted ledger' contents' := by
  have hcensus : (ledger'.census primary).erase ptr = (ledger.census primary).erase ptr := by
    ext other
    rw [Finset.mem_erase, Finset.mem_erase]
    exact and_congr_right fun hne ↦ halters.mem_census_iff hne
  have hsum : ∀ server,
      ∑ other ∈ (ledger'.census primary).erase ptr, balancer.assigned (contents'.held other) server =
        ∑ other ∈ (ledger.census primary).erase ptr, balancer.assigned (contents.held other) server := by
    intro server
    rw [hcensus]
    refine Finset.sum_congr rfl fun other hmem ↦ ?_
    rw [hheld other (Finset.ne_of_mem_erase hmem)]
  have hafter := hmoves (fun server ↦ ∑ other ∈ (ledger'.census primary).erase ptr,
    balancer.assigned (contents'.held other) server) (fun hlive server ↦ hroom.others hlive server) ?_
  · exact hafter.congr fun server ↦ (tally_eq ledger' contents'.held ptr server).symm
  · exact h.congr fun server ↦ by rw [hsum, ← tally_eq]

theorem share_of_primary (hlive : ledger.Live ptr)
    (hprimary : (ledger.cards ptr).replicationState ≠ .isReplica) (server : ℕ) :
    balancer.share ledger held ptr server = balancer.assigned (held ptr) server :=
  if_pos (Ledger.mem_census.2 ⟨hlive, decide_eq_true hprimary⟩)

theorem share_of_replica (hreplica : (ledger.cards ptr).replicationState = .isReplica) (server : ℕ) :
    balancer.share ledger held ptr server = 0 := by
  refine if_neg fun hmem ↦ ?_
  exact of_decide_eq_true (Ledger.mem_census.1 hmem).2 hreplica

theorem share_of_free (hfree : ¬ledger.Live ptr) (server : ℕ) : balancer.share ledger held ptr server = 0 :=
  if_neg fun hmem ↦ hfree (Ledger.mem_census.1 hmem).1

theorem share_of_unbound (hunbound : balancer.Unbound (held ptr)) (server : ℕ) :
    balancer.share ledger held ptr server = 0 := by
  unfold share
  split
  · exact hunbound.assigned server
  · rfl

namespace Counted

variable {code : ℕ → NetworkFunction σ τ}

section

variable (h : balancer.Counted ledger contents)

include h

/-- An actor becomes or stops being a replica only while it has no server. -/
theorem relabel (halters : ledger.Alters ledger' ptr) (hlive : ledger'.Live ptr ↔ ledger.Live ptr)
    (hreplica : balancer.Unbound (contents.held ptr) ∨ ((ledger'.cards ptr).replicationState = .isReplica ↔
        (ledger.cards ptr).replicationState = .isReplica)) (hroom : balancer.Roomy ledger' contents.held) :
    balancer.Counted ledger' contents := by
  refine h.alter halters (fun _ _ ↦ rfl) hroom fun count _ hcount ↦ hcount.congr fun server ↦ ?_
  rcases hreplica with hunbound | hreplica
  · rw [share_of_unbound hunbound, share_of_unbound hunbound]
  · have hmem : ptr ∈ ledger'.census primary ↔ ptr ∈ ledger.census primary := by
      rw [Ledger.mem_census, Ledger.mem_census, hlive, primary, primary, decide_eq_true_iff, decide_eq_true_iff]
      exact and_congr_right fun _ ↦ not_congr hreplica
    simp only [share, hmem]

/-- A packet runs through the chain of an actor; a replica has its servers. -/
theorem process (hruns : balancer.Runs (code balancer.nf)) (halters : ledger.Alters ledger' ptr)
    (hlive : ledger.Live ptr) (hlive' : ledger'.Live ptr)
    (hreplica : (ledger'.cards ptr).replicationState = .isReplica ↔
      (ledger.cards ptr).replicationState = .isReplica)
    (hbound : (ledger.cards ptr).replicationState = .isReplica → balancer.Bound (contents.held ptr))
    (pkt : Packet) (hroom : balancer.Roomy ledger' (contents.process code ptr pkt).held) :
    balancer.Counted ledger' (contents.process code ptr pkt) := by
  refine h.alter halters (fun other hne ↦ Contents.held_put_of_ne _ hne _ _ _) hroom ?_
  intro count hslots hcount
  by_cases hcopy : (ledger.cards ptr).replicationState = .isReplica
  · have hsame := run_of_bound hruns (contents.held ptr) pkt contents.shared (hbound hcopy)
    change Tallies (balancer.ss ((Holding.run code (contents.held ptr) pkt contents.shared).2.2.2
      balancer.nf)) _
    rw [hsame]
    exact hcount.congr fun server ↦ by rw [share_of_replica hcopy, share_of_replica (hreplica.2 hcopy)]
  · rw [Contents.held_process, slots_run] at hslots
    refine (tallies_run hruns (contents.held ptr) pkt contents.shared count (hslots hlive')
      (hcount.congr fun server ↦ by rw [share_of_primary hlive hcopy])).congr fun server ↦ ?_
    rw [share_of_primary hlive' (mt hreplica.1 hcopy), Contents.held_process]

/-- An actor that was not live holds flow states without a server. -/
theorem enroll (halters : ledger.Alters ledger' ptr) (hfree : ¬ledger.Live ptr) {fresh : Holding σ}
    (buffer : List Packet) (hshare : balancer.Unbound fresh ∨ (ledger'.cards ptr).replicationState = .isReplica)
    (hroom : balancer.Roomy ledger' (contents.put ptr fresh buffer contents.shared).held) :
    balancer.Counted ledger' (contents.put ptr fresh buffer contents.shared) := by
  refine h.alter halters (fun other hne ↦ Contents.held_put_of_ne _ hne _ _ _) hroom ?_
  intro count _ hcount
  refine hcount.congr fun server ↦ ?_
  rw [share_of_free hfree]
  rcases hshare with hunbound | hreplica
  · rw [share_of_unbound (by rw [Contents.held_put]; exact hunbound)]
  · rw [share_of_replica hreplica]

theorem arrive (hruns : balancer.Runs (code balancer.nf)) (halters : ledger.Alters ledger' ptr)
    (hlive' : ledger'.Live ptr) (status : ArriveStatus) (loaded : Holding σ)
    (hbefore : balancer.Unbound (contents.held ptr) ∨ (ledger.cards ptr).replicationState = .isReplica)
    (hprimary : (ledger'.cards ptr).replicationState ≠ .isReplica)
    (hroom : balancer.Roomy ledger' (contents.call (fun code state shared ↦
      code.nfFlowArrive state shared status) code ptr loaded).held) :
    balancer.Counted ledger' (contents.call (fun code state shared ↦
      code.nfFlowArrive state shared status) code ptr loaded) := by
  refine h.alter halters (fun other hne ↦ Contents.held_put_of_ne _ hne _ _ _) hroom ?_
  intro count hslots hcount
  rw [Contents.call, Contents.held_put, slots_each] at hslots
  have huncounted : Tallies (balancer.ss (contents.shared balancer.nf)) count := by
    refine hcount.congr fun server ↦ ?_
    rcases hbefore with hunbound | hreplica
    · rw [share_of_unbound hunbound, Nat.add_zero]
    · rw [share_of_replica hreplica, Nat.add_zero]
  refine (tallies_arrive hruns status loaded contents.shared count (hslots hlive') huncounted).congr
    fun server ↦ ?_
  rw [share_of_primary hlive' hprimary, Contents.call, Contents.held_put]

/-- A counted flow runs its buffered packets. -/
theorem replay (hruns : balancer.Runs (code balancer.nf)) (hlive : ledger.Live ptr)
    (hprimary : (ledger.cards ptr).replicationState ≠ .isReplica)
    (hroom : balancer.Roomy ledger (contents.replay code ptr).held) :
    balancer.Counted ledger (contents.replay code ptr) := by
  refine h.alter ⟨fun _ _ ↦ rfl, fun _ _ ↦ Iff.rfl⟩
    (fun other hne ↦ (Contents.replay_of_ne contents code hne).1) hroom ?_
  intro count hslots hcount
  rw [slots_replay] at hslots
  refine (tallies_replay hruns contents ptr count (hslots hlive)
    (hcount.congr fun server ↦ by rw [share_of_primary hlive hprimary])).congr fun server ↦ ?_
  rw [share_of_primary hlive hprimary]

/-- An actor leaves; if this is a replica, it has no server. -/
theorem leave (hruns : balancer.Runs (code balancer.nf)) (halters : ledger.Alters ledger' ptr)
    (hlive : ledger.Live ptr) (hgone : ¬ledger'.Live ptr)
    (hunbound : (ledger.cards ptr).replicationState = .isReplica → balancer.Unbound (contents.held ptr))
    (status : LeaveStatus) (hroom : balancer.Roomy ledger' (contents.leave status code ptr).held) :
    balancer.Counted ledger' (contents.leave status code ptr) := by
  refine h.alter halters (fun other hne ↦ Contents.held_put_of_ne _ hne _ _ _) hroom ?_
  intro count _ hcount
  have hcounted : Tallies (balancer.ss (contents.shared balancer.nf)) fun server ↦
      count server + balancer.assigned (contents.held ptr) server := by
    refine hcount.congr fun server ↦ ?_
    by_cases hreplica : (ledger.cards ptr).replicationState = .isReplica
    · rw [share_of_replica hreplica, (hunbound hreplica).assigned]
    · rw [share_of_primary hlive hreplica]
  refine (tallies_leave hruns status (contents.held ptr) contents.shared count hcounted).congr fun server ↦ ?_
  rw [share_of_free hgone, Nat.add_zero]

end

end Counted

variable (balancer) in
/-- No packet binds a replica; a flow migrates in to an actor without a server that is not a replica; a replica
with a server does not leave, and it stops being one only when the response to its recovery arrives. -/
def Steady (rt : Runtime σ τ) : Input σ → Prop
  | .packet _ pkt => ∀ ptr, rt.htable (flowKeyOf pkt) = some ptr →
    (rt.actors ptr).replicationState = .isReplica → balancer.Bound (rt.contents.held ptr)
  | .message _ _ message => ∀ ptr, rt.ledger.Delivers message ptr →
    match message.body with
    | .migrateFlowState _ => (rt.actors ptr).replicationState ≠ .isReplica ∧
      balancer.Unbound (rt.contents.held ptr)
    | .migrateFlowStateResponse requestMsgId =>
      requestMsgId = (rt.actors ptr).migrationTimer.requestMsgId →
        (rt.actors ptr).replicationState = .isReplica → balancer.Unbound (rt.contents.held ptr)
    | .replicaRecoverResponse requestMsgId _ =>
      requestMsgId = (rt.actors ptr).replicationTimer.requestMsgId →
        (rt.actors ptr).replicationState ≠ .isReplica → balancer.Unbound (rt.contents.held ptr)
    | _ => True
  | .fire env ptr kind => (rt.actors ptr).replicationState = .isReplica →
    balancer.Unbound (rt.contents.held ptr) ∨
      match ((rt.actors ptr).timer kind).msgType with
      | .checkIdle => (rt.actors ptr).sampleCounter ≠ (rt.actors ptr).pktCounter
      | .replicaRecoverTimeout => ∀ peer,
        env.reliables (rt.actors ptr).inputHeader.destRtid = some peer → peer.connectionUp = true
      | _ => True
  | _ => True

theorem roomy_of_orderly (balancer : Balancer σ τ) (h : rt.ledger.Orderly) :
    balancer.Roomy rt.ledger rt.contents.held := by
  obtain ⟨lost, hslots⟩ := h.slots
  have hcard := congrArg Multiset.card (hslots.balance balancer.nf)
  rw [Multiset.card_add, Multiset.card_add, Multiset.card_sum, Multiset.card_range] at hcard
  have hsum : ∑ ptr ∈ rt.ledger.allocator.outstanding, balancer.slots (rt.contents.held ptr) =
      ∑ ptr ∈ rt.ledger.allocator.outstanding, (slotsOf balancer.nf (rt.ledger.cards ptr).chain).card := by
    refine Finset.sum_congr rfl fun ptr hlive ↦ ?_
    rw [card_slotsOf, slots, Runtime.held_contents hlive, Runtime.flowStates, NfTable.map_fst_view]
    rfl
  rw [Roomy, hsum]
  omega

theorem code_of_change (h : rt.Change input ledger' contents') : contents'.code = rt.contents.code := by
  cases h with
  | packet _ _ _ _ _ _ hfed => cases hfed <;> rfl
  | arrive => exact (Contents.fixed_replay _ _ _).2
  | _ => rfl

theorem Roomy.congr (h : balancer.Roomy ledger held)
    (hslots : ∀ ptr, balancer.slots (held' ptr) = balancer.slots (held ptr)) :
    balancer.Roomy ledger held' := by
  rw [Roomy, Finset.sum_congr rfl fun ptr _ ↦ hslots ptr]
  exact h

theorem slots_process (code : ℕ → NetworkFunction σ τ) (contents : Contents σ τ) (ptr : ℕ) (pkt : Packet)
    (other : ℕ) :
    balancer.slots (contents.held other) = balancer.slots ((contents.process code ptr pkt).held other) := by
  by_cases heq : other = ptr
  · subst heq
    rw [Contents.process, Contents.held_put, slots_run]
  · rw [Contents.process, Contents.held_put_of_ne _ heq]

namespace Counted

theorem packet {rt : Runtime σ τ} {pkt : Packet} (h : balancer.Counted rt.ledger rt.contents)
    (hruns : balancer.Runs (rt.nfs.code balancer.nf)) (hlive : rt.ledger.Live ptr)
    (hbound : (rt.ledger.cards ptr).replicationState = .isReplica → balancer.Bound (rt.contents.held ptr))
    (hfed : rt.Fed ptr pkt contents') (hledger : ledger' = rt.ledger ∨
      (rt.actors ptr).replicationState = .haveReplica ∧ ledger' = rt.ledger.dropReplica ptr)
    (hroom : balancer.Roomy ledger' contents'.held) : balancer.Counted ledger' contents' := by
  obtain ⟨halters, hlive', hreplica⟩ : rt.ledger.Alters ledger' ptr ∧ (ledger'.Live ptr ↔ rt.ledger.Live ptr) ∧
      ((ledger'.cards ptr).replicationState = .isReplica ↔
        (rt.ledger.cards ptr).replicationState = .isReplica) := by
    rcases hledger with rfl | ⟨hhave, rfl⟩
    · exact ⟨⟨fun _ _ ↦ rfl, fun _ _ ↦ Iff.rfl⟩, Iff.rfl, Iff.rfl⟩
    · refine ⟨.of_touches (.modifyCard rfl rfl rfl rfl), Iff.rfl, ?_⟩
      have hbefore : (rt.ledger.cards ptr).replicationState = .haveReplica := hhave
      rw [hbefore, Ledger.dropReplica, Ledger.modifyCard, Ledger.cards_setCard]
      exact iff_of_false (show ReplicationState.noReplica ≠ .isReplica by decide)
        (show ReplicationState.haveReplica ≠ .isReplica by decide)
  cases hfed with
  | dropped => exact h.relabel halters hlive' (.inr hreplica) hroom
  | buffered =>
    have hheld : (rt.contents.put ptr (rt.contents.held ptr) (rt.contents.buffers ptr ++ [pkt])
        rt.contents.shared).held = rt.contents.held := update_eq_self _ _
    rw [hheld] at hroom
    have hsame := h.relabel halters hlive' (.inr hreplica) hroom
    rw [Counted, hheld]
    exact hsame
  | processed => exact h.process hruns halters hlive (hlive'.2 hlive) hreplica hbound pkt hroom

theorem migratedIn {code : ℕ → NetworkFunction σ τ} (h : balancer.Counted ledger contents)
    (hruns : balancer.Runs (code balancer.nf)) (hlive : ledger.Live ptr)
    (hprimary : (ledger.cards ptr).replicationState ≠ .isReplica)
    (hunbound : balancer.Unbound (contents.held ptr)) (loaded : Holding σ)
    (hroom : balancer.Roomy (ledger.arrive ptr) ((contents.call (fun code state shared ↦
      code.nfFlowArrive state shared .migrateIn) code ptr loaded).replay code ptr).held) :
    balancer.Counted (ledger.arrive ptr) ((contents.call (fun code state shared ↦
      code.nfFlowArrive state shared .migrateIn) code ptr loaded).replay code ptr) := by
  have hprimary' : ((ledger.arrive ptr).cards ptr).replicationState ≠ .isReplica := by
    rw [Ledger.arrive, Ledger.addTail, Ledger.modifyCard, Ledger.cards_setCard]
    exact hprimary
  refine replay ?_ hruns hlive hprimary' hroom
  refine h.arrive hruns (.of_touches (.arrive ledger ptr)) hlive .migrateIn loaded (.inl hunbound)
    hprimary' (hroom.congr fun other ↦ ?_)
  by_cases heq : other = ptr
  · rw [heq, slots_replay]
  · rw [(Contents.replay_of_ne _ code heq).1]

end Counted

theorem counted_step (horderly : rt.ledger.Orderly) (hruns : balancer.Runs (rt.nfs.code balancer.nf))
    (h : balancer.Counted rt.ledger rt.contents) (hsteady : balancer.Steady rt input)
    (hstep : rt.step input = some rt') : balancer.Counted rt'.ledger rt'.contents := by
  have hsound := horderly.sound
  have hroom := balancer.roomy_of_orderly (horderly.effect (Runtime.step_effect hsound.blank input hstep))
  have hended (ptr : ℕ) (succeeded : Bool) :
      ((rt.ledger.endRecovery ptr succeeded).cards ptr).replicationState ≠ .isReplica := by
    simp [Ledger.endRecovery, Ledger.addTail, Ledger.dropReplica, Ledger.modifyCard, Ledger.setCard]
  have hchange := Runtime.step_change horderly hstep
  generalize rt'.ledger = ledger' at hchange hroom ⊢
  generalize rt'.contents = contents' at hchange hroom ⊢
  cases hchange with
  | inert _ _ _ hreplication hsame =>
    have hcensus : ledger'.census primary = rt.ledger.census primary := by
      simp only [Ledger.census, primary, hreplication, hsame]
      rfl
    exact h.congr fun server ↦ by rw [tally, tally, hcensus]
  | packet _ _ ptr _ _ hkey hfed hledger =>
    exact h.packet hruns (hsound.flow_live _ ptr hkey) (hsteady ptr hkey) hfed hledger hroom
  | newFlow _ pkt ptr ring replication _ _ _ hpop hprimary _ hinitial =>
    have hlive : (rt.ledger.enroll ptr ring .activeFlows (flowKeyOf pkt) .normalProcessing
        replication).Live ptr := (hsound.live_enroll hpop ptr).2 (.inl rfl)
    have hcard : ((rt.ledger.enroll ptr ring .activeFlows (flowKeyOf pkt) .normalProcessing
        replication).cards ptr).replicationState ≠ .isReplica := by
      rw [Ledger.cards_enroll, update_self]
      exact hprimary
    have hadmitted := h.enroll (.enroll hsound .activeFlows (flowKeyOf pkt) _ _ hpop)
      (hsound.pool.pop hpop).2.1 [] (.inl (hruns.unbound hinitial))
      (hroom.congr fun other ↦ slots_process rt.nfs.code _ ptr pkt other)
    exact hadmitted.process hruns ⟨fun _ _ ↦ rfl, fun _ _ ↦ Iff.rfl⟩ hlive hlive Iff.rfl
      (fun hreplica ↦ absurd hreplica hcard) pkt hroom
  | newTarget _ _ _ _ _ key _ _ _ _ _ hpop _ hinitial =>
    exact h.enroll (.enroll hsound .activeFlows key _ _ hpop) (hsound.pool.pop hpop).2.1 []
      (.inl (hruns.unbound hinitial)) hroom
  | newReplica _ _ _ _ _ key _ _ _ _ head _ _ _ hpop =>
    refine h.enroll (.enroll hsound (.replicaFlows head) key _ _ hpop) (hsound.pool.pop hpop).2.1 []
      (.inr ?_) hroom
    rw [Ledger.cards_enroll, update_self]
    rfl
  | mirror _ _ _ _ _ _ _ _ _ _ _ _ hreplica =>
    refine h.alter ⟨fun _ _ ↦ rfl, fun _ _ ↦ Iff.rfl⟩
      (fun other hne ↦ Contents.held_put_of_ne _ hne _ _ _) hroom fun count _ hcount ↦ ?_
    exact hcount.congr fun server ↦ by rw [share_of_replica hreplica, share_of_replica hreplica]
  | arrive _ _ _ ptr _ hdelivers hbody =>
    have hready := hsteady ptr hdelivers
    rw [hbody] at hready
    exact h.migratedIn hruns (hsound.id_live _ ptr hdelivers.2.1) hready.1 hready.2 _ hroom
  | recovered _ _ _ ptr _ hdelivers hbody =>
    have hready := hsteady ptr hdelivers
    rw [hbody] at hready
    refine h.arrive hruns (.of_touches (.endRecovery rt.ledger ptr true))
      (hsound.id_live _ ptr hdelivers.2.1) .recoverOn _ ?_ (hended ptr true) hroom
    by_cases hreplica : (rt.ledger.cards ptr).replicationState = .isReplica
    · exact .inr hreplica
    · exact .inl (hready rfl hreplica)
  | notRecovered _ ptr _ peer htype hpeer hdown =>
    refine h.relabel (.of_touches (.endRecovery rt.ledger ptr false)) Iff.rfl ?_ hroom
    by_cases hreplica : (rt.ledger.cards ptr).replicationState = .isReplica
    · refine .inl ((hsteady hreplica).resolve_right ?_)
      rw [htype]
      exact fun hup ↦ absurd (hup peer hpeer) (by simp [hdown])
    · exact .inr (iff_of_false (hended ptr false) hreplica)
  | ship _ _ _ ptr =>
    exact h.relabel (.of_touches (.request rt.ledger ptr _ _)) Iff.rfl
      (.inr (by rw [Ledger.cards_request])) hroom
  | expire _ ptr _ harmed htype hidle =>
    have hleaves := Ledger.Leaves.expire hsound harmed htype
    refine h.leave hruns hleaves.remove hleaves.live hleaves.gone (fun hreplica ↦ ?_) .idle hroom
    refine (hsteady hreplica).resolve_right ?_
    rw [Runtime.cards_ledger, Runtime.card_timer] at htype
    rw [htype]
    exact not_not.2 hidle.2
  | complete _ _ _ ptr hdelivers hbody =>
    have hleaves := Ledger.Leaves.complete hsound hdelivers
    have hready := hsteady ptr hdelivers
    rw [hbody] at hready
    exact h.leave hruns hleaves.remove hleaves.live hleaves.gone (hready rfl) .migrateOut hroom

/-! ## Runs -/

variable (balancer) in
/-- A runtime with the load balancer and any number of servers. -/
def system : TransitionSystem (Runtime σ τ) (Input σ) where
  init rt := ∃ config serviceChain code zero sharedState servers, balancer.Runs (code balancer.nf) ∧
    balancer.ss (sharedState balancer.nf) = some (.ofServers servers) ∧
    rt = Runtime.boot config serviceChain code zero sharedState
  step := Runtime.step

variable (balancer) in
/-- The live actors that are not replicas and whose flows are directed to a server. -/
def flowsAt (rt : Runtime σ τ) (server : ℕ) : Finset ℕ :=
  rt.allocator.outstanding.filter fun ptr ↦ (rt.actors ptr).replicationState ≠ .isReplica ∧
    ∃ entry ∈ rt.flowStates ptr, entry.1 = balancer.nf ∧ (balancer.fs entry.2).serverPos = server

variable (balancer) in
/-- What the steps of a steady run keep. -/
structure Kept (rt : Runtime σ τ) : Prop where
  orderly : rt.ledger.Orderly
  runs : balancer.Runs (rt.nfs.code balancer.nf)
  counted : balancer.Counted rt.ledger rt.contents

theorem Kept.init (h : balancer.system.init rt) : balancer.Kept rt := by
  obtain ⟨config, serviceChain, code, zero, sharedState, servers, hruns, hservers, rfl⟩ := h
  refine ⟨Runtime.orderly_boot config serviceChain code zero sharedState, hruns, ?_⟩
  intro state hstate server workload hworkload
  have hshared : some (LoadBalancerSharedState.ofServers servers) = some state := hservers.symm.trans hstate
  rw [← Option.some.inj hshared] at hworkload
  rw [List.eq_of_mem_replicate (List.mem_of_getElem? hworkload), UInt64.toNat_zero]
  refine (Finset.sum_eq_zero fun ptr hmem ↦ ?_).symm
  have hlive := (Ledger.mem_census.1 hmem).1
  have hchain := (Runtime.blank_boot config serviceChain code zero sharedState ptr).chain
  have hnothing : (Runtime.boot config serviceChain code zero sharedState).contents.held ptr = [] := by
    rw [Runtime.held_contents hlive, Runtime.flowStates]
    exact congrArg (NfTable.view _) hchain
  rw [hnothing]
  rfl

theorem Kept.step (h : balancer.Kept rt) (hsteady : balancer.Steady rt input)
    (hstep : rt.step input = some rt') : balancer.Kept rt' where
  orderly := h.orderly.effect (Runtime.step_effect h.orderly.sound.blank input hstep)
  runs := by
    have hcode : rt'.nfs.code = rt.nfs.code := code_of_change (Runtime.step_change h.orderly hstep)
    rw [hcode]
    exact h.runs
  counted := counted_step h.orderly h.runs h.counted hsteady hstep

/-- With one load balancer in the service chain an actor counts once. -/
theorem tally_eq_card (horderly : rt.ledger.Orderly) (honce : rt.serviceChain.count balancer.nf ≤ 1)
    (server : ℕ) : balancer.tally rt.ledger rt.contents.held server = (balancer.flowsAt rt server).card := by
  obtain ⟨lost, hslots⟩ := horderly.slots
  have hassigned : ∀ ptr, rt.ledger.Live ptr → balancer.assigned (rt.contents.held ptr) server =
      if ∃ entry ∈ rt.flowStates ptr, entry.1 = balancer.nf ∧ (balancer.fs entry.2).serverPos = server
        then 1 else 0 := by
    intro ptr hlive
    have hle : balancer.slots (rt.flowStates ptr) ≤ 1 := by
      rw [slots, Runtime.flowStates, NfTable.map_fst_view]
      rcases hslots.chains ptr hlive with hnil | hmap
      · have hchain : (rt.actors ptr).chain = [] := hnil
        rw [hchain]
        exact Nat.zero_le 1
      · have hchain : (rt.actors ptr).chain.map ChainSlot.nf = rt.serviceChain := hmap
        rw [hchain]
        exact honce
    have hmost := (balancer.assigned_le_slots (rt.flowStates ptr) server).trans hle
    rw [Runtime.held_contents hlive]
    split
    · next hsome =>
      have hpos : 0 < balancer.assigned (rt.flowStates ptr) server := by
        rw [assigned, List.countP_pos_iff]
        simpa using hsome
      omega
    · next hnone =>
      rw [assigned, List.countP_eq_zero]
      intro entry hmem hentry
      exact hnone ⟨entry, hmem, of_decide_eq_true hentry⟩
  rw [tally, Finset.sum_congr rfl fun ptr hmem ↦ hassigned ptr (Ledger.mem_census.1 hmem).1,
    ← Finset.card_filter, Ledger.census, Finset.filter_filter]
  congr 1
  ext ptr
  simp only [flowsAt, Finset.mem_filter, primary, decide_eq_true_eq]
  rfl

/-- In every run whose steps are steady, the workload of a server is the number of the flows that are directed
to it, and no counted actor would take more off than there is. -/
theorem workload_exact (balancer : Balancer σ τ) {rt : Runtime σ τ}
    (hreach : balancer.system.Reachable balancer.Steady rt) {shared : LoadBalancerSharedState}
    (hshared : balancer.ss (rt.nfs.shared balancer.nf) = some shared) :
    ∀ server workload, shared.serverWorkload[server]? = some workload →
      workload.toNat = balancer.tally rt.ledger rt.contents.held server ∧
      (rt.serviceChain.count balancer.nf ≤ 1 → workload.toNat = (balancer.flowsAt rt server).card) ∧
      ∀ ptr, rt.ledger.Live ptr → (rt.actors ptr).replicationState ≠ .isReplica →
        balancer.assigned (rt.flowStates ptr) server ≤ workload.toNat := by
  intro server workload hworkload
  have hkept : balancer.Kept rt :=
    hreach.invariant (fun _ hinit ↦ .init hinit) fun _ _ _ hkept hsteady hstep ↦ hkept.step hsteady hstep
  have hcount := hkept.counted shared hshared server workload hworkload
  refine ⟨hcount, fun honce ↦ hcount.trans (tally_eq_card hkept.orderly honce server), ?_⟩
  intro ptr hlive hprimary
  have hmem : ptr ∈ rt.ledger.census primary := Ledger.mem_census.2 ⟨hlive, decide_eq_true hprimary⟩
  rw [hcount, tally, ← Runtime.held_contents hlive]
  exact Finset.single_le_sum (fun other _ ↦ Nat.zero_le (balancer.assigned (rt.contents.held other) server))
    hmem

/-- The load balancer is function `1` and its states are stored as they are. -/
def alone : Balancer LoadBalancerFs (Option LoadBalancerSharedState) := ⟨1, id, id⟩

/-- Runtime `1` with the load balancer and its six servers. -/
def balancedBoot : Runtime LoadBalancerFs (Option LoadBalancerSharedState) :=
  Runtime.boot ⟨1, 0x11, 0x12, 0x13⟩ [1] (fun _ ↦ loadBalancer) (fun _ ↦ ⟨0, 0⟩) fun _ ↦ some .initial

theorem init_balancedBoot : alone.system.init balancedBoot := by
  refine ⟨_, _, _, _, _, _, ?_, rfl, rfl⟩
  exact ⟨fun _ _ _ ↦ ⟨rfl, rfl⟩, fun _ _ _ ↦ ⟨rfl, rfl⟩, fun _ _ _ ↦ rfl, fun _ ↦ rfl⟩

/-- All peers are connected and no flow gets a replica. -/
def peersUp : Environment LoadBalancerFs where
  reliables := fun _ ↦ some ⟨true, 0x21⟩
  macToReliables := fun _ ↦ some (some 3)
  replicaItem := none
  outputItem := none
  replicaConnection := none
  sendOk := true
  secondSendOk := true
  staleStates := fun _ ↦ ⟨0, 0⟩

open NfvActor.Actor.Runtime (tcpPacket)

/-- Runtime `3` replicates a flow of the first server. -/
def firstReplica : Input LoadBalancerFs :=
  .message peersUp 3 ⟨5, coordinatorActorId, 9, .replication FlowActor.blankHeader FlowActor.blankHeader
    (flowKeyOf (tcpPacket 8)) (fun _ ↦ ⟨0, 0⟩) (tcpPacket 8)⟩

/-- The replica of a flow with a server does not count, the flow next to it does. -/
theorem workload_exact_replica : ∃ rt shared,
    alone.system.run balancedBoot [.addStorage 3, .packet peersUp (tcpPacket 7), firstReplica] = some rt ∧
      alone.ss (rt.nfs.shared 1) = some shared ∧ shared.serverWorkload = [1, 0, 0, 0, 0, 0] ∧
      (alone.flowsAt rt 0).card = 1 := by
  obtain ⟨stored, hstored, hnew, bound, hbound, rt, hrt, honce, shared, hshared, hserver⟩ :
      ∃ stored ∈ balancedBoot.step (.addStorage 3), stored.htable (flowKeyOf (tcpPacket 7)) = none ∧
      ∃ bound ∈ stored.step (.packet peersUp (tcpPacket 7)), ∃ rt ∈ bound.step firstReplica,
        rt.serviceChain.count 1 = 1 ∧
          ∃ shared ∈ rt.nfs.shared 1, shared.serverWorkload = [1, 0, 0, 0, 0, 0] := by decide +kernel
  have hreach : alone.system.Reachable alone.Steady rt := by
    refine .next firstReplica (.next (.packet peersUp (tcpPacket 7))
      (.next (.addStorage 3) (.start init_balancedBoot) trivial hstored) ?_ hbound) ?_ hrt
    · intro ptr hptr
      cases hnew.symm.trans hptr
    · intro ptr hdelivers
      exact absurd rfl hdelivers.1
  have hexact := workload_exact alone hreach hshared 0 1 (by rw [hserver]; rfl)
  refine ⟨rt, shared, ?_, hshared, hserver, (hexact.2.1 honce.le).symm⟩
  rw [Option.mem_def] at hstored hbound hrt
  simp only [TransitionSystem.run, system, hstored, Option.bind_some, hbound, hrt]

/-- The replica is idle and takes off the workload of the flow next to it, which is still directed to the first
server; when that leaves, the guard hides that there is nothing to take off. -/
theorem idle_replica_takes_workload : ∃ rt shared,
    alone.system.run balancedBoot [.addStorage 3, .packet peersUp (tcpPacket 7), firstReplica,
      .fire peersUp 2 .idle, .fire peersUp 2 .idle] = some rt ∧
      alone.ss (rt.nfs.shared 1) = some shared ∧ shared.serverWorkload = [0, 0, 0, 0, 0, 0] ∧
      1 ∈ alone.flowsAt rt 0 ∧ shared.decreaseServerWorkload 0 = some shared := by
  obtain ⟨rt, hsteps, hkey, hprimary, hentry, shared, hshared, hserver, hhidden⟩ :
      ∃ rt ∈ alone.system.run balancedBoot [.addStorage 3, .packet peersUp (tcpPacket 7), firstReplica,
        .fire peersUp 2 .idle, .fire peersUp 2 .idle],
        rt.htable (flowKeyOf (tcpPacket 7)) = some 1 ∧ (rt.actors 1).replicationState ≠ .isReplica ∧
        (∃ entry ∈ rt.flowStates 1, entry.1 = 1 ∧ entry.2.serverPos = 0) ∧
        ∃ shared ∈ rt.nfs.shared 1, shared.serverWorkload = [0, 0, 0, 0, 0, 0] ∧
          shared.decreaseServerWorkload 0 = some shared := by
    decide +kernel
  have horderly : rt.ledger.Orderly := by
    have hreach := TransitionSystem.Reachable.replay init_balancedBoot hsteps
    refine hreach.invariant (fun _ hinit ↦ (Kept.init hinit).orderly) fun rt input rt' h _ hstep ↦ ?_
    exact h.effect (Runtime.step_effect h.sound.blank input hstep)
  refine ⟨rt, shared, hsteps, hshared, hserver, ?_, hhidden⟩
  exact Finset.mem_filter.2 ⟨horderly.sound.flow_live _ 1 hkey, hprimary, hentry⟩

end Balancer

end NfvActor.Nf
