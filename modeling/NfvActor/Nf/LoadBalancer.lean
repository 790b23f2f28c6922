import Mathlib.Tactic
import NfvActor.Foundation.Transition
import NfvActor.Actor.NetworkFunction

/-!
# The load balancer

`find_smallest_workload_server` dereferences the iterator that `std::min_element` returns: its result is the
smallest workload, not the position of the server that has it. The two agree in the states that `Aligned`
describes, and only there does a new flow go to a least loaded server.
-/

namespace NfvActor.Nf

open NfvActor.Foundation
open NfvActor.Actor
open NfvActor.Reliable (Packet littleEndian)
open Option (bind_eq_some_iff map_eq_some_iff)

/-- The value of a 64-bit number stored in an `int`. -/
def toInt (value : UInt64) : ℤ := (value.toNat : ℤ).bmod (2 ^ 32)

/-- `std::min_element`: the position of the first smallest value, or the end of an empty range. -/
def minElement : List UInt64 → ℕ
  | [] => 0
  | value :: rest =>
    match rest[minElement rest]? with
    | some least => if least < value then minElement rest + 1 else 0
    | none => 0

/-- `load_balancer_fs`. -/
structure LoadBalancerFs where
  serverPos : ℤ
  serverIpAddr : UInt32
deriving DecidableEq, Repr

/-- `load_balancer_shared_state`; every server has a workload. -/
structure LoadBalancerSharedState where
  servers : List UInt32
  serverWorkload : List UInt64
  paired : serverWorkload.length = servers.length
deriving DecidableEq

namespace LoadBalancerSharedState

/-- The state after `add_server` has been called for each address. -/
def ofServers (servers : List UInt32) : LoadBalancerSharedState where
  servers := servers
  serverWorkload := List.replicate servers.length 0
  paired := List.length_replicate

/-- `convert_string_ip` once the four numbers have been read. -/
def convertStringIp (a b c d : UInt32) : UInt32 :=
  ((d <<< 24) &&& (0xFF000000 : UInt32)) ||| ((c <<< 16) &&& (0x00FF0000 : UInt32)) |||
    ((b <<< 8) &&& (0x0000FF00 : UInt32)) ||| (a &&& (0x000000FF : UInt32))

/-- The constructor. -/
def initial : LoadBalancerSharedState :=
  ofServers ([1, 2, 3, 4, 5, 6].map (convertStringIp 192 168 1))

variable (shared : LoadBalancerSharedState)

/-- The position of a server in the two vectors; another index is a fault. -/
def index (serverPos : ℤ) : Option ℕ :=
  if 0 ≤ serverPos ∧ serverPos.toNat < shared.servers.length then some serverPos.toNat else none

def getServerIp (serverPos : ℤ) : Option UInt32 :=
  (shared.index serverPos).bind fun position ↦ shared.servers[position]?

/-- Changes the workload of one server. -/
def modifyWorkload (serverPos : ℤ) (change : UInt64 → UInt64) :
    Option LoadBalancerSharedState :=
  (shared.index serverPos).map fun position ↦
    { shared with
      serverWorkload := shared.serverWorkload.modify position change
      paired := by rw [List.length_modify, shared.paired] }

def addServerWorkload (serverPos : ℤ) :
    Option LoadBalancerSharedState :=
  shared.modifyWorkload serverPos fun workload ↦ workload + 1

def decreaseServerWorkload (serverPos : ℤ) :
    Option LoadBalancerSharedState :=
  shared.modifyWorkload serverPos fun workload ↦ if 0 < workload then workload - 1 else workload

/-- The smallest workload. -/
def smallestWorkload : Option UInt64 :=
  shared.serverWorkload[minElement shared.serverWorkload]?

/-- `find_smallest_workload_server` returns the value that the iterator points to. -/
def findSmallestWorkloadServer : Option ℤ :=
  shared.smallestWorkload.map toInt

end LoadBalancerSharedState

namespace LoadBalancer

def nfLogicImpl (pkt : Packet) (fs : LoadBalancerFs) (shared : LoadBalancerSharedState) :
    Option (Packet × LoadBalancerFs × LoadBalancerSharedState) :=
  if fs.serverPos = -1 then do
    let serverPos ← shared.findSmallestWorkloadServer
    let serverIpAddr ← shared.getServerIp serverPos
    let shared ← shared.addServerWorkload serverPos
    some (pkt.write (14 + 16) (littleEndian 4 serverIpAddr.toNat), ⟨serverPos, serverIpAddr⟩, shared)
  else
    some (pkt.write (14 + 16) (littleEndian 4 fs.serverIpAddr.toNat), fs, shared)

def nfFlowArriveImpl (fs : LoadBalancerFs) (shared : LoadBalancerSharedState) :
    Option LoadBalancerSharedState :=
  if fs.serverPos = -1 then some shared else shared.addServerWorkload fs.serverPos

def nfFlowLeaveImpl (fs : LoadBalancerFs) (shared : LoadBalancerSharedState) :
    Option LoadBalancerSharedState :=
  if fs.serverPos = -1 then some shared else shared.decreaseServerWorkload fs.serverPos

def nfInitFsImpl (fs : LoadBalancerFs) : LoadBalancerFs := { fs with serverPos := -1 }

end LoadBalancer

/-- The load balancer as a network function; a fault leaves no shared state. -/
def loadBalancer : NetworkFunction LoadBalancerFs (Option LoadBalancerSharedState) where
  nfLogic := fun pkt fs shared ↦
    match shared.bind (LoadBalancer.nfLogicImpl pkt fs) with
    | some (pkt, fs, shared) => (true, pkt, fs, some shared)
    | none => (true, pkt, fs, none)
  nfFlowArrive := fun fs shared _ ↦ (fs, shared.bind (LoadBalancer.nfFlowArriveImpl fs))
  nfFlowLeave := fun fs shared _ ↦ (fs, shared.bind (LoadBalancer.nfFlowLeaveImpl fs))
  nfInitFs := LoadBalancer.nfInitFsImpl

namespace LoadBalancer

/-- What the flows of a runtime do to the shared state. -/
inductive Event
  | newFlow (pkt : Packet) (fs : LoadBalancerFs)
  | arrive (fs : LoadBalancerFs)
  | leave (fs : LoadBalancerFs)

def step (shared : LoadBalancerSharedState) : Event → Option LoadBalancerSharedState
  | .newFlow pkt fs => (nfLogicImpl pkt (nfInitFsImpl fs) shared).map fun result ↦ result.2.2
  | .arrive fs => nfFlowArriveImpl fs shared
  | .leave fs => nfFlowLeaveImpl fs shared

/-- Any number of servers without workload. -/
def system : TransitionSystem LoadBalancerSharedState Event where
  init shared := ∃ servers, shared = .ofServers servers
  step := step

end LoadBalancer

theorem minElement_spec {values : List UInt64} (h : values ≠ []) :
    ∃ least, values[minElement values]? = some least ∧ ∀ value ∈ values, least ≤ value := by
  induction values with
  | nil => exact absurd rfl h
  | cons value rest ih =>
    by_cases hrest : rest = []
    · subst hrest
      refine ⟨value, rfl, fun other hother ↦ ?_⟩
      rw [List.mem_singleton.1 hother]
      exact UInt64.le_refl value
    · obtain ⟨least, hleast, hle⟩ := ih hrest
      by_cases hlt : least < value
      · refine ⟨least, ?_, ?_⟩
        · rw [minElement, hleast]
          simp only [if_pos hlt, List.getElem?_cons_succ, hleast]
        · intro other hother
          rcases List.mem_cons.1 hother with rfl | hother
          · exact UInt64.le_of_lt hlt
          · exact hle other hother
      · refine ⟨value, ?_, ?_⟩
        · rw [minElement, hleast]
          simp only [if_neg hlt, List.getElem?_cons_zero]
        · intro other hother
          rcases List.mem_cons.1 hother with rfl | hother
          · exact UInt64.le_refl other
          · exact UInt64.le_trans (UInt64.not_lt.1 hlt) (hle other hother)

namespace LoadBalancerSharedState

variable {shared shared' : LoadBalancerSharedState} {serverPos : ℤ}

/-- The position is that of a server and no server has less workload. -/
structure Least (shared : LoadBalancerSharedState) (serverPos : ℤ) : Prop where
  nonneg : 0 ≤ serverPos
  smallest : ∃ workload, shared.serverWorkload[serverPos.toNat]? = some workload ∧
    ∀ other ∈ shared.serverWorkload, workload ≤ other

/-- Some server has its own position as its workload, and no server has less. -/
def Aligned (shared : LoadBalancerSharedState) : Prop :=
  ∃ position : Fin shared.serverWorkload.length,
    toInt (shared.serverWorkload.get position) = (position : ℕ) ∧
      ∀ other ∈ shared.serverWorkload, shared.serverWorkload.get position ≤ other

instance (shared : LoadBalancerSharedState) : Decidable shared.Aligned :=
  -- The entries of the table are tried, not all 64-bit numbers.
  have (workload : UInt64) : Decidable (∀ other ∈ shared.serverWorkload, workload ≤ other) :=
    List.decidableBAll _ _
  inferInstanceAs (Decidable (∃ _, _))

/-- The workloads of two servers differ by at most one. -/
def Balanced (shared : LoadBalancerSharedState) : Prop :=
  ∀ workload ∈ shared.serverWorkload, ∀ other ∈ shared.serverWorkload, workload.toNat ≤ other.toNat + 1

variable {least : UInt64} (h : shared.smallestWorkload = some least)

include h

theorem le_of_smallestWorkload {workload : UInt64} (hmem : workload ∈ shared.serverWorkload) :
    least ≤ workload := by
  obtain ⟨least', hleast, hle⟩ := minElement_spec (List.ne_nil_of_mem hmem)
  cases h.symm.trans hleast
  exact hle workload hmem

theorem mem_of_smallestWorkload : least ∈ shared.serverWorkload := List.mem_of_getElem? h

/-- The smallest workload names a least loaded server exactly when the table is aligned. -/
theorem least_iff : shared.Least (toInt least) ↔ shared.Aligned := by
  have hmem := mem_of_smallestWorkload h
  constructor
  · rintro ⟨hnonneg, workload, hworkload, hle⟩
    have heq : workload = least := UInt64.le_antisymm (hle least hmem)
      (le_of_smallestWorkload h (List.mem_of_getElem? hworkload))
    obtain ⟨hlt, hget⟩ := List.getElem?_eq_some_iff.1 hworkload
    refine ⟨⟨_, hlt⟩, ?_, ?_⟩
    · rw [List.get_eq_getElem, hget, heq, Int.toNat_of_nonneg hnonneg]
    · rw [List.get_eq_getElem, hget]
      exact hle
  · rintro ⟨position, hposition, hle⟩
    have heq : shared.serverWorkload.get position = least :=
      UInt64.le_antisymm (hle least hmem) (le_of_smallestWorkload h (List.get_mem ..))
    rw [heq] at hposition hle
    refine ⟨?_, least, ?_, hle⟩
    · rw [hposition]
      exact Int.natCast_nonneg _
    · rw [hposition, Int.toNat_natCast, List.getElem?_eq_getElem position.isLt, ← List.get_eq_getElem, heq]

omit h

theorem smallestWorkload_ne_none (h : shared.serverWorkload ≠ []) :
    ∃ least, shared.smallestWorkload = some least := by
  obtain ⟨least, hleast, -⟩ := minElement_spec h
  exact ⟨least, hleast⟩

/-- A server without workload is found as the first one. -/
theorem findSmallestWorkloadServer_of_zero (h : 0 ∈ shared.serverWorkload) :
    shared.findSmallestWorkloadServer = some 0 := by
  obtain ⟨least, hsmallest⟩ := smallestWorkload_ne_none (List.ne_nil_of_mem h)
  have hzero : least = 0 := UInt64.le_antisymm (le_of_smallestWorkload hsmallest h) (UInt64.zero_le)
  rw [findSmallestWorkloadServer, hsmallest, hzero, Option.map_some]
  decide

theorem find_least_iff :
    (∃ serverPos, shared.findSmallestWorkloadServer = some serverPos ∧ shared.Least serverPos) ↔
      shared.Aligned := by
  constructor
  · rintro ⟨serverPos, hfind, hleast⟩
    obtain ⟨least, hsmallest, rfl⟩ := map_eq_some_iff.1 hfind
    exact (least_iff hsmallest).1 hleast
  · intro haligned
    obtain ⟨position, -⟩ := id haligned
    obtain ⟨least, hsmallest⟩ := smallestWorkload_ne_none (List.ne_nil_of_length_pos position.pos)
    exact ⟨toInt least, map_eq_some_iff.2 ⟨least, hsmallest, rfl⟩, (least_iff hsmallest).2 haligned⟩

theorem Least.index_eq (h : shared.Least serverPos) : shared.index serverPos = some serverPos.toNat := by
  obtain ⟨hnonneg, workload, hworkload, -⟩ := h
  obtain ⟨hlt, -⟩ := List.getElem?_eq_some_iff.1 hworkload
  rw [shared.paired] at hlt
  exact if_pos ⟨hnonneg, hlt⟩

theorem index_some {position : ℕ} (h : shared.index serverPos = some position) :
    position = serverPos.toNat ∧ position < shared.servers.length := by
  unfold index at h
  split at h
  · next hin =>
    cases h
    exact ⟨rfl, hin.2⟩
  · cases h

end LoadBalancerSharedState

/-! ## New flows -/

namespace LoadBalancer

open LoadBalancerSharedState

variable {shared shared' : LoadBalancerSharedState} {pkt : Packet} {fs : LoadBalancerFs}

theorem nfLogicImpl_new {result : Packet × LoadBalancerFs × LoadBalancerSharedState}
    (hnew : fs.serverPos = -1) (h : nfLogicImpl pkt fs shared = some result) :
    shared.findSmallestWorkloadServer = some result.2.1.serverPos ∧
      shared.addServerWorkload result.2.1.serverPos = some result.2.2 := by
  rw [nfLogicImpl, if_pos hnew] at h
  obtain ⟨serverPos, hfind, h⟩ := bind_eq_some_iff.1 h
  obtain ⟨serverIpAddr, -, h⟩ := bind_eq_some_iff.1 h
  obtain ⟨added, hadd, h⟩ := bind_eq_some_iff.1 h
  cases h
  exact ⟨hfind, hadd⟩

theorem nfLogicImpl_of_find {serverPos : ℤ} {position : ℕ} (pkt : Packet) (hnew : fs.serverPos = -1)
    (hfind : shared.findSmallestWorkloadServer = some serverPos)
    (hindex : shared.index serverPos = some position) :
    ∃ result, nfLogicImpl pkt fs shared = some result ∧ result.2.1.serverPos = serverPos := by
  have hserverIp : shared.getServerIp serverPos = some (shared.servers.get ⟨position, (index_some hindex).2⟩) := by
    rw [getServerIp, hindex, Option.bind_some]
    exact List.getElem?_eq_getElem _
  rw [nfLogicImpl, if_pos hnew, hfind, Option.bind_eq_bind, Option.bind_some, hserverIp,
    Option.bind_eq_bind, Option.bind_some, addServerWorkload, modifyWorkload, hindex,
    Option.map_some, Option.bind_eq_bind, Option.bind_some]
  exact ⟨_, rfl, rfl⟩

/-- A new flow is bound to a least loaded server exactly when the table is aligned. -/
theorem newFlow_least_iff (pkt : Packet) (shared : LoadBalancerSharedState) (hnew : fs.serverPos = -1) :
    (∃ result, nfLogicImpl pkt fs shared = some result ∧ shared.Least result.2.1.serverPos) ↔
      shared.Aligned := by
  rw [← find_least_iff]
  constructor
  · rintro ⟨result, hresult, hleast⟩
    exact ⟨_, (nfLogicImpl_new hnew hresult).1, hleast⟩
  · rintro ⟨serverPos, hfind, hleast⟩
    obtain ⟨result, hresult, rfl⟩ := nfLogicImpl_of_find pkt hnew hfind hleast.index_eq
    exact ⟨result, hresult, hleast⟩

/-- The workloads when the first of the servers has all the flows. -/
def onFirst (servers flows : ℕ) : List UInt64 := (List.replicate servers 0).set 0 (UInt64.ofNat flows)

/-- A new flow joins the others at the first server; a single server takes no second one. -/
theorem newFlow_onFirst {servers flows : ℕ} (htable : shared.serverWorkload = onFirst servers flows)
    (hroom : servers ≤ 1 → flows ≤ servers) (hstep : step shared (.newFlow pkt fs) = some shared') :
    shared'.serverWorkload = onFirst servers (flows + 1) ∧ (servers ≤ 1 → flows + 1 ≤ servers) := by
  obtain ⟨result, hresult, rfl⟩ := map_eq_some_iff.1 hstep
  obtain ⟨hfind, hadd⟩ := nfLogicImpl_new rfl hresult
  obtain ⟨position, hindex, hafter⟩ := map_eq_some_iff.1 hadd
  obtain ⟨hposition, hlt⟩ := index_some hindex
  rw [← shared.paired, htable, onFirst, List.length_set, List.length_replicate] at hlt
  have hzero : 0 ∈ shared.serverWorkload → result.2.2.serverWorkload = onFirst servers (flows + 1) := by
    intro hmem
    rw [findSmallestWorkloadServer_of_zero hmem] at hfind
    rw [← Option.some.inj hfind, Int.toNat_zero] at hposition
    obtain ⟨servers, rfl⟩ := Nat.exists_eq_add_of_lt hlt
    rw [← hafter]
    simp [htable, hposition, onFirst, List.replicate_succ, UInt64.ofNat_add]
  rcases servers with - | - | servers
  · exact absurd hlt (Nat.not_lt_zero _)
  · rcases Nat.le_one_iff_eq_zero_or_eq_one.1 (hroom le_rfl) with rfl | rfl
    · exact ⟨hzero (by rw [htable]; decide), fun _ ↦ le_rfl⟩
    · -- The only server has one flow, and there is no second server to take the position for.
      have hone : shared.findSmallestWorkloadServer = some 1 := by
        rw [findSmallestWorkloadServer, smallestWorkload, htable]
        decide
      rw [hone] at hfind
      rw [← Option.some.inj hfind] at hposition
      exact absurd (hposition ▸ hlt) (by decide)
  · exact ⟨hzero (by rw [htable]; simp [onFirst, List.replicate_succ]), fun hle ↦ by omega⟩

/-- With a second server the first packet of a flow meets no fault. -/
theorem newFlow_total {servers flows : ℕ} (pkt : Packet) (fs : LoadBalancerFs)
    (htable : shared.serverWorkload = onFirst servers flows) (htwo : 1 < servers) :
    ∃ shared', step shared (.newFlow pkt fs) = some shared' := by
  obtain ⟨servers, rfl⟩ := Nat.exists_eq_add_of_lt htwo
  have hmem : 0 ∈ shared.serverWorkload := by
    rw [htable]
    simp [onFirst, List.replicate_succ]
  have hindex : shared.index 0 = some 0 := by
    refine if_pos ⟨le_rfl, ?_⟩
    rw [← shared.paired]
    exact List.length_pos_of_mem hmem
  have hnew : (nfInitFsImpl fs).serverPos = -1 := rfl
  obtain ⟨result, hresult, -⟩ := nfLogicImpl_of_find pkt hnew (findSmallestWorkloadServer_of_zero hmem) hindex
  exact ⟨result.2.2, map_eq_some_iff.2 ⟨result, hresult, rfl⟩⟩

/-- The events of a run with new flows only. -/
def newFlows (flows : List (Packet × LoadBalancerFs)) : List Event := flows.map fun flow ↦ .newFlow flow.1 flow.2

/-- A run of new flows adds all of them to the first server. -/
theorem run_newFlows {servers before : ℕ} (flows : List (Packet × LoadBalancerFs))
    (htable : shared.serverWorkload = onFirst servers before) (hroom : servers ≤ 1 → before ≤ servers) :
    (1 < servers → ∃ shared', system.run shared (newFlows flows) = some shared') ∧
    ∀ shared', system.run shared (newFlows flows) = some shared' →
      shared'.serverWorkload = onFirst servers (before + flows.length) ∧
        (servers ≤ 1 → before + flows.length ≤ servers) := by
  induction flows generalizing shared before with
  | nil =>
    refine ⟨fun _ ↦ ⟨shared, rfl⟩, fun shared' hrun ↦ ?_⟩
    cases hrun
    exact ⟨htable, hroom⟩
  | cons flow rest ih =>
    constructor
    · intro htwo
      obtain ⟨mid, hstep⟩ := newFlow_total flow.1 flow.2 htable htwo
      obtain ⟨hmid, hroom'⟩ := newFlow_onFirst htable hroom hstep
      obtain ⟨shared', hrun⟩ := (ih hmid hroom').1 htwo
      exact ⟨shared', bind_eq_some_iff.2 ⟨mid, hstep, hrun⟩⟩
    · intro shared' hrun
      obtain ⟨mid, hstep, hrest⟩ := bind_eq_some_iff.1 hrun
      obtain ⟨hmid, hroom'⟩ := newFlow_onFirst htable hroom hstep
      rw [List.length_cons, Nat.add_comm rest.length, ← Nat.add_assoc]
      exact (ih hmid hroom').2 shared' hrest

theorem balanced_onFirst {servers flows : ℕ} (htable : shared.serverWorkload = onFirst servers flows) :
    shared.Balanced ↔ servers ≤ 1 ∨ flows % 2 ^ 64 ≤ 1 := by
  unfold LoadBalancerSharedState.Balanced
  rw [htable]
  rcases servers with - | - | servers
  · simp [onFirst]
  · simp [onFirst]
  · simpa [onFirst, List.replicate_succ] using fun hle _ ↦ hle

/-- In every state the search finds a least loaded server, and a new flow is bound to one, if and only if the
table is aligned. In runs of new flows all go to the first server, and the workloads stay within one of each
other only until the second flow. -/
theorem new_flows_least_loaded (shared : LoadBalancerSharedState) :
    ((∃ serverPos, shared.findSmallestWorkloadServer = some serverPos ∧ shared.Least serverPos) ↔
      shared.Aligned) ∧
    (∀ (pkt : Packet) (fs : LoadBalancerFs), fs.serverPos = -1 →
      ((∃ result, nfLogicImpl pkt fs shared = some result ∧ shared.Least result.2.1.serverPos) ↔
        shared.Aligned)) ∧
    (∀ (servers : List UInt32) (flows : List (Packet × LoadBalancerFs)),
      (1 < servers.length → ∃ shared', system.run (.ofServers servers) (newFlows flows) = some shared') ∧
      ∀ shared', system.run (.ofServers servers) (newFlows flows) = some shared' →
        shared'.serverWorkload = onFirst servers.length flows.length ∧
          (shared'.Balanced ↔ servers.length ≤ 1 ∨ flows.length % 2 ^ 64 ≤ 1)) := by
  refine ⟨find_least_iff, fun pkt fs hnew ↦ newFlow_least_iff pkt shared hnew, fun servers flows ↦ ?_⟩
  have htable : (ofServers servers).serverWorkload = onFirst servers.length 0 :=
    (List.set_replicate_self ..).symm
  obtain ⟨htotal, hrun⟩ := run_newFlows flows htable fun _ ↦ Nat.zero_le _
  rw [Nat.zero_add] at hrun
  refine ⟨htotal, fun shared' h ↦ ⟨(hrun shared' h).1, ?_⟩⟩
  exact balanced_onFirst (hrun shared' h).1

def firstFlow : Event := .newFlow (Packet.ofBytes 0 []) ⟨0, 0⟩

/-- The first flow goes to a least loaded server; after three the first server has them all. -/
theorem new_flows_least_loaded_first :
    (∃ serverPos, LoadBalancerSharedState.initial.findSmallestWorkloadServer = some serverPos ∧
      LoadBalancerSharedState.initial.Least serverPos) ∧
    ∃ shared, system.run .initial [firstFlow, firstFlow, firstFlow] = some shared ∧
      shared.serverWorkload = [3, 0, 0, 0, 0, 0] ∧ ¬ shared.Balanced := by
  obtain ⟨hfind, -, hruns⟩ := new_flows_least_loaded .initial
  obtain ⟨htotal, hrun⟩ := hruns ([1, 2, 3, 4, 5, 6].map (LoadBalancerSharedState.convertStringIp 192 168 1))
    (List.replicate 3 (Packet.ofBytes 0 [], ⟨0, 0⟩))
  obtain ⟨shared, hshared⟩ := htotal (by decide)
  obtain ⟨htable, hbalanced⟩ := hrun shared hshared
  exact ⟨hfind.2 (by decide), shared, hshared, htable, fun h ↦ absurd (hbalanced.1 h) (by decide)⟩

/-- The second flow goes to the server of the first, although the others have no workload. -/
theorem second_flow_most_loaded : ∃ shared shared',
    system.run .initial [firstFlow] = some shared ∧
      shared.serverWorkload = [1, 0, 0, 0, 0, 0] ∧ shared.findSmallestWorkloadServer = some 0 ∧
      step shared firstFlow = some shared' ∧ shared'.serverWorkload = [2, 0, 0, 0, 0, 0] := by
  exact ⟨_, _, rfl, by decide, by decide, rfl, by decide⟩

end LoadBalancer

end NfvActor.Nf
