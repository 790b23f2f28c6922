import Mathlib.Tactic
import NfvActor.Actor.Firewall
import NfvActor.Actor.Step

/-!
# Verdicts of the service chain

The loop that runs a packet through the chain is written twice: for packets processed as they come, and for
packets that a migration target has buffered. The replay puts a packet out exactly when every function has
accepted it; the other path hands the verdict to `no_replication_output`, which ignores it.
-/

namespace NfvActor.Actor

open NfvActor.Foundation
open NfvActor.Reliable (Packet)
open Function

namespace NfTable

variable {σ τ : Type}

/-- Every function of the chain returns true for the packet. -/
def AllAccept : List ChainSlot → Packet → NfTable σ τ → Prop
  | [], _, _ => True
  | position :: rest, pkt, nfs =>
    let result := (nfs position.nf).nfLogic pkt position.slot
    result.1 = true ∧ AllAccept rest result.2.1 (nfs.set position.nf result.2.2)

theorem runChain_accepts_iff (chain : List ChainSlot) (pkt : Packet) (nfs : NfTable σ τ) :
    (runChain chain pkt nfs).1 = true ↔ AllAccept chain pkt nfs := by
  induction chain generalizing pkt nfs with
  | nil => simp [runChain, AllAccept]
  | cons _ _ ih =>
    rw [runChain, AllAccept]
    split
    · next haccept => rw [ih, and_iff_right haccept]
    · next hreject => exact iff_of_false (by simp) fun h ↦ hreject h.1

/-- Packets pass through the chain one after the other. -/
def afterPackets (chain : List ChainSlot) : List Packet → NfTable σ τ → NfTable σ τ
  | [], nfs => nfs
  | pkt :: rest, nfs => afterPackets chain rest (runChain chain pkt nfs).2.2

/-- The verdict on each packet when packets pass through the chain in turn. -/
def verdicts (chain : List ChainSlot) : List Packet → NfTable σ τ → List Bool
  | [], _ => []
  | pkt :: rest, nfs => (runChain chain pkt nfs).1 :: verdicts chain rest (runChain chain pkt nfs).2.2

/-- Every function returns true for every packet when they pass in turn. -/
def AllPass (chain : List ChainSlot) : List Packet → NfTable σ τ → Prop
  | [], _ => True
  | pkt :: rest, nfs =>
    AllAccept chain pkt nfs ∧ AllPass chain rest (runChain chain pkt nfs).2.2

theorem verdicts_eq_replicate_iff (chain : List ChainSlot) (pkts : List Packet) (nfs : NfTable σ τ) :
    verdicts chain pkts nfs = List.replicate pkts.length true ↔ AllPass chain pkts nfs := by
  induction pkts generalizing nfs with
  | nil => simp [verdicts, AllPass]
  | cons _ _ ih =>
    rw [verdicts, AllPass, List.length_cons, List.replicate_succ, List.cons.injEq, ih, runChain_accepts_iff]

end NfTable

namespace Runtime

variable {σ τ : Type}

/-- Packets on the two output batches. -/
def outputs (rt : Runtime σ τ) : ℕ := rt.ecSchedulerBatch.length + rt.gb.length

/-- What a step did with its packet: output batch or collector. -/
def decision (rt rt' : Runtime σ τ) : Option Bool :=
  if rt'.outputs = rt.outputs + 1 ∧ rt'.gpCollector = rt.gpCollector then some true
  else if rt'.outputs = rt.outputs ∧ rt'.gpCollector.length = rt.gpCollector.length + 1 then some false
  else none

/-- Delivers packets by `pkt_msg_t`, each in a batch of its own. -/
def deliver (env : Environment σ) (ptr : ℕ) :
    List Packet → Runtime σ τ → Option (List (Option Bool) × Runtime σ τ)
  | [], rt => some ([], rt)
  | pkt :: rest, rt =>
    let rt := { rt with ecSchedulerBatch := [] }
    (rt.pktMsg env ptr pkt).bind fun rt' ↦
      (deliver env ptr rest rt').map fun later ↦ (rt.decision rt' :: later.1, later.2)

/-- Replays buffered packets. -/
def replay (ptr : ℕ) :
    List (ℕ × Packet) → Runtime σ τ → Option (List (Option Bool) × Runtime σ τ)
  | [], rt => some ([], rt)
  | cell :: rest, rt =>
    (rt.replayPacket ptr cell).bind fun rt' ↦
      (replay ptr rest rt').map fun later ↦ (rt.decision rt' :: later.1, later.2)

/-- The verdicts of the chain are what happens to the packets on both paths, which leave the network functions
alike. -/
def VerdictsEnforced (rt : Runtime σ τ) (env : Environment σ) (ptr : ℕ) (cells : List (ℕ × Packet)) :
    Prop :=
  ∃ delivered replayed, deliver env ptr (cells.map Prod.snd) rt = some delivered ∧
    replay ptr cells rt = some replayed ∧
    delivered.1 = (NfTable.verdicts (rt.actors ptr).chain (cells.map Prod.snd) rt.nfs).map some ∧
    replayed.1 = (NfTable.verdicts (rt.actors ptr).chain (cells.map Prod.snd) rt.nfs).map some ∧
    delivered.2.nfs = replayed.2.nfs

/-- An initialised actor without replica that processes packets as they come. -/
structure Processes (rt : Runtime σ τ) (ptr : ℕ) : Prop where
  initialised : (rt.actors ptr).coordinatorSet = true
  replication : (rt.actors ptr).replicationState ≠ .haveReplica
  target : (rt.actors ptr).currentState ≠ .migrationTarget
  route : (rt.actors ptr).currentState ≠ .afterRouteChange

instance (rt : Runtime σ τ) (ptr : ℕ) : Decidable (rt.Processes ptr) :=
  decidable_of_iff (_ ∧ _ ∧ _ ∧ _) ⟨fun h ↦ ⟨h.1, h.2.1, h.2.2.1, h.2.2.2⟩, fun h ↦ ⟨h.1, h.2, h.3, h.4⟩⟩

variable {rt rt' : Runtime σ τ} {ptr : ℕ}

/-- Counting a packet changes nothing else of an actor. -/
def Counted (rt rt' : Runtime σ τ) (ptr : ℕ) : Prop :=
  rt'.actors ptr = { rt.actors ptr with pktCounter := (rt.actors ptr).pktCounter + 1 }

theorem Processes.counted (h : rt.Processes ptr) (hcounted : rt.Counted rt' ptr) : rt'.Processes ptr := by
  rw [Counted] at hcounted
  constructor <;> rw [hcounted]
  · exact h.initialised
  · exact h.replication
  · exact h.target
  · exact h.route

theorem Counted.chain (h : rt.Counted rt' ptr) : (rt'.actors ptr).chain = (rt.actors ptr).chain := by
  rw [Counted] at h
  rw [h]

theorem Processes.pktMsg (h : rt.Processes ptr) (env : Environment σ) (pkt : Packet)
    (hempty : rt.ecSchedulerBatch = []) : ∃ rt', rt.pktMsg env ptr pkt = some rt' ∧
      rt'.nfs = (NfTable.runChain (rt.actors ptr).chain pkt rt.nfs).2.2 ∧ rt.Counted rt' ptr ∧
      rt.decision rt' = some true := by
  have hnormal : rt.pktMsg env ptr pkt = rt.pktNormalNfProcessing env ptr pkt := by
    unfold Runtime.pktMsg
    split
    · next htarget => exact absurd htarget h.target
    · next hroute => exact absurd hroute h.route
    · rfl
  have hinit : ((update rt.actors ptr
      { rt.actors ptr with pktCounter := (rt.actors ptr).pktCounter + 1 }) ptr).coordinatorSet = true := by
    rw [update_self]
    exact h.initialised
  rw [hnormal, pktNormalNfProcessing, if_neg h.replication, noReplicationOutput,
    modifyActor, if_pos hinit, emit, hempty]
  refine ⟨_, rfl, rfl, ?_, ?_⟩
  · rw [Counted]
    exact update_self ..
  · rw [decision, if_pos]
    exact ⟨by simp [outputs, hempty]; omega, rfl⟩

/-- A replayed packet is put on the batch of the control port exactly when it is accepted. -/
theorem replayPacket_decides (rt : Runtime σ τ) (ptr : ℕ) (cell : ℕ × Packet)
    (hroom : rt.gb.length < collectiveBufferSize) : ∃ rt', rt.replayPacket ptr cell = some rt' ∧
      rt'.nfs = (NfTable.runChain (rt.actors ptr).chain cell.2 rt.nfs).2.2 ∧ rt.Counted rt' ptr ∧
      rt.decision rt' = some (NfTable.runChain (rt.actors ptr).chain cell.2 rt.nfs).1 ∧
      rt'.gb.length ≤ rt.gb.length + 1 := by
  rw [replayPacket]
  cases hverdict : (NfTable.runChain (rt.actors ptr).chain cell.2 rt.nfs).1 with
  | true =>
    rw [if_pos rfl, addPktSetGate, if_pos hroom, Option.map_some]
    refine ⟨_, rfl, rfl, ?_, ?_, ?_⟩
    · rw [Counted]
      exact update_self ..
    · rw [decision, if_pos]
      exact ⟨by simp [outputs, modifyActor]; omega, rfl⟩
    · simp [modifyActor]
  | false =>
    rw [if_neg (by simp), Option.map_some]
    refine ⟨_, rfl, rfl, ?_, ?_, ?_⟩
    · rw [Counted]
      exact update_self ..
    · rw [decision, if_neg, if_pos]
      · exact ⟨rfl, by simp [collect, modifyActor]⟩
      · simp [outputs, collect, modifyActor]
    · simp [collect, modifyActor]

/-- One by one every packet is put out, whatever the verdicts. -/
theorem Processes.deliver (h : rt.Processes ptr) (env : Environment σ) (pkts : List Packet) :
    ∃ rt', Runtime.deliver env ptr pkts rt = some (List.replicate pkts.length (some true), rt') ∧
      rt'.nfs = NfTable.afterPackets (rt.actors ptr).chain pkts rt.nfs := by
  induction pkts generalizing rt with
  | nil => exact ⟨rt, rfl, rfl⟩
  | cons pkt _ ih =>
    have hbatch : { rt with ecSchedulerBatch := [] }.Processes ptr :=
      ⟨h.initialised, h.replication, h.target, h.route⟩
    obtain ⟨mid, hmsg, hnfs, hcounted, hdecision⟩ := hbatch.pktMsg env pkt rfl
    obtain ⟨rt', hrest, hafter⟩ := ih (hbatch.counted hcounted)
    refine ⟨rt', ?_, ?_⟩
    · rw [Runtime.deliver, hmsg, Option.bind_some, hrest, Option.map_some, hdecision]
      rfl
    · rw [hafter, hcounted.chain, hnfs]
      rfl

/-- In a replay the verdicts decide. -/
theorem replay_spec (rt : Runtime σ τ) (ptr : ℕ) (cells : List (ℕ × Packet))
    (hroom : rt.gb.length + cells.length ≤ collectiveBufferSize) :
    ∃ rt', replay ptr cells rt = some
        ((NfTable.verdicts (rt.actors ptr).chain (cells.map Prod.snd) rt.nfs).map some, rt') ∧
      rt'.nfs = NfTable.afterPackets (rt.actors ptr).chain (cells.map Prod.snd) rt.nfs := by
  induction cells generalizing rt with
  | nil => exact ⟨rt, rfl, rfl⟩
  | cons cell _ ih =>
    rw [List.length_cons] at hroom
    obtain ⟨mid, hpacket, hnfs, hcounted, hdecision, hlength⟩ := rt.replayPacket_decides ptr cell (by omega)
    obtain ⟨rt', hrest, hafter⟩ := ih mid (by omega)
    rw [hcounted.chain, hnfs] at hrest hafter
    refine ⟨rt', ?_, hafter⟩
    rw [replay, hpacket, Option.bind_some, hrest, Option.map_some, hdecision]
    rfl

/-- The verdicts are enforced alike on both paths exactly when no function rejects any packet. -/
theorem verdicts_enforced_iff (h : rt.Processes ptr) (env : Environment σ) (cells : List (ℕ × Packet))
    (hroom : rt.gb.length + cells.length ≤ collectiveBufferSize) :
    rt.VerdictsEnforced env ptr cells ↔
      NfTable.AllPass (rt.actors ptr).chain (cells.map Prod.snd) rt.nfs := by
  obtain ⟨delivered, hdeliver, hdelivered⟩ := h.deliver env (cells.map Prod.snd)
  obtain ⟨replayed, hreplay, hreplayed⟩ := rt.replay_spec ptr cells hroom
  rw [← NfTable.verdicts_eq_replicate_iff]
  have hinj : Function.Injective (List.map (some : Bool → Option Bool)) :=
    List.map_injective_iff.2 (Option.some_injective Bool)
  constructor
  · rintro ⟨result, -, hresult, -, heq, -, -⟩
    rw [hdeliver, Option.some.injEq] at hresult
    rw [← hresult, ← List.map_replicate] at heq
    exact (hinj heq).symm
  · intro hall
    refine ⟨_, _, hdeliver, hreplay, ?_, rfl, hdelivered.trans hreplayed.symm⟩
    rw [hall, List.map_replicate]

/-! ## A runtime with the firewall -/

/-- Runtime `1` with the firewall as its service chain. -/
def firewallBoot : Runtime FirewallFs FirewallSharedState :=
  boot ⟨1, 0x11, 0x12, 0x13⟩ [2] (fun _ ↦ firewall) (fun _ ↦ ⟨0, 0, 0, 0, 0, 0, 0, 0⟩) (fun _ ↦ .initial)

/-- The peers of `connected`. -/
def firewallPeers : Environment FirewallFs where
  reliables := connected.reliables
  macToReliables := connected.macToReliables
  replicaItem := none
  outputItem := none
  replicaConnection := none
  sendOk := true
  secondSendOk := true
  staleStates := fun _ ↦ ⟨0, 0, 0, 0, 0, 0, 0, 0⟩

/-- A TCP packet from `117.7.8.1`, which the first rule blocks. -/
def blockedPacket : Packet :=
  .ofBytes 128 ([0, 0, 0, 0, 0, 0x21, 0, 0, 0, 0, 0, 0x31, 0x08, 0x00] ++
    [0x45, 0, 0, 40, 0, 0, 0, 0, 64, 6, 0, 0, 117, 7, 8, 1, 10, 0, 0, 1] ++
    [0x1F, 0x90, 0, 80] ++ List.replicate 16 0)

/-- The firewall accepts the packets of this flow: both paths agree. -/
theorem verdicts_enforced_for_accepted_flow : ∃ rt : Runtime FirewallFs FirewallSharedState,
    (system _ _).step firewallBoot (.packet firewallPeers (tcpPacket 7)) = some rt ∧
      rt.VerdictsEnforced firewallPeers 1 [(0, tcpPacket 7)] := by
  obtain ⟨rt, hstep, hprocesses, hroom, hverdicts⟩ :
      ∃ rt ∈ (system _ _).step firewallBoot (.packet firewallPeers (tcpPacket 7)), rt.Processes 1 ∧
        rt.gb.length + 1 ≤ collectiveBufferSize ∧
        NfTable.verdicts (rt.actors 1).chain [tcpPacket 7] rt.nfs = [true] := by decide +kernel
  refine ⟨rt, hstep, (verdicts_enforced_iff hprocesses firewallPeers [(0, tcpPacket 7)] hroom).2 ?_⟩
  exact (NfTable.verdicts_eq_replicate_iff _ _ _).1 hverdicts

/-- The firewall rejects these packets. The actor puts them out all the same, a replay drops them. -/
theorem rejected_packet_emitted : ∃ rt : Runtime FirewallFs FirewallSharedState,
    (system _ _).Reachable TransitionSystem.anyStep rt ∧ rt.Processes 1 ∧
      ¬NfTable.AllAccept (rt.actors 1).chain blockedPacket rt.nfs ∧
      (deliver firewallPeers 1 [blockedPacket] rt).map Prod.fst = some [some true] ∧
      (replay 1 [(0, blockedPacket)] rt).map Prod.fst = some [some false] ∧
      ¬rt.VerdictsEnforced firewallPeers 1 [(0, blockedPacket)] := by
  obtain ⟨rt, hstep, hprocesses, hroom, hverdicts⟩ :
      ∃ rt ∈ (system _ _).step firewallBoot (.packet firewallPeers blockedPacket), rt.Processes 1 ∧
        rt.gb.length + 1 ≤ collectiveBufferSize ∧
        NfTable.verdicts (rt.actors 1).chain [blockedPacket] rt.nfs = [false] := by decide +kernel
  obtain ⟨delivered, hdeliver, -⟩ := hprocesses.deliver firewallPeers [blockedPacket]
  obtain ⟨replayed, hreplay, -⟩ := rt.replay_spec 1 [(0, blockedPacket)] hroom
  refine ⟨rt, .next _ (.start ⟨_, _, _, _, _, rfl⟩) trivial hstep, hprocesses, ?_, ?_, ?_, ?_⟩
  · rw [← NfTable.runChain_accepts_iff]
    rw [NfTable.verdicts, List.cons.injEq] at hverdicts
    rw [hverdicts.1]
    decide
  · rw [hdeliver]
    rfl
  · rw [hreplay, Option.map_some, List.map_cons, List.map_nil, hverdicts]
    rfl
  · rintro ⟨result, -, hresult, -, heq, -⟩
    rw [List.map_cons, List.map_nil, hdeliver, Option.some.injEq] at hresult
    rw [← hresult, List.map_cons, List.map_nil, hverdicts] at heq
    cases heq

end Runtime

end NfvActor.Actor
