import Mathlib.Tactic
import NfvActor.Actor.Firewall
import NfvActor.Nf.LoadBalancer
import NfvActor.Nf.SourceNat

/-!
# Slots that have belonged to another flow

A slot comes back from the ring with the bytes of the flow that had it before. Three of the network functions
write every field before they read it. The firewall only resets the status of the connection: its counters go on
from the values of the previous flow.
-/

namespace NfvActor.Nf

open NfvActor.Actor
open NfvActor.Reliable (Packet)

section Trace

variable {σ τ ω : Type}

/-- What a flow shows with each packet: the verdict, the packet as rewritten, and its counters. With each packet
comes what other flows did to the shared state before. -/
def trace (nf : NetworkFunction σ τ) (counters : σ → ω) :
    List (Packet × (τ → τ)) → σ → τ → List (Bool × Packet × ω)
  | [], _, _ => []
  | (pkt, others) :: rest, fs, shared =>
    let result := nf.nfLogic pkt fs (others shared)
    (result.1, result.2.1, counters result.2.2.1) ::
      trace nf counters rest result.2.2.1 result.2.2.2

/-- The flow state after all packets. -/
def stateAfter (nf : NetworkFunction σ τ) : List (Packet × (τ → τ)) → σ → τ → σ
  | [], fs, _ => fs
  | (pkt, others) :: rest, fs, shared =>
    let result := nf.nfLogic pkt fs (others shared)
    stateAfter nf rest result.2.2.1 result.2.2.2

/-- Two results that show the same and leave related flow states. -/
structure Agree (related : σ → σ → Prop) (result result' : Bool × Packet × σ × τ) : Prop where
  verdict : result.1 = result'.1
  packet : result.2.1 = result'.2.1
  state : related result.2.2.1 result'.2.2.1
  shared : result.2.2.2 = result'.2.2.2

/-- Related flow states have the same counters, and packets keep them related. -/
structure Alike (nf : NetworkFunction σ τ) (counters : σ → ω) (related : σ → σ → Prop) : Prop where
  counted : ∀ {fs fs'}, related fs fs' → counters fs = counters fs'
  step : ∀ {fs fs'} pkt shared, related fs fs' →
    Agree related (nf.nfLogic pkt fs shared) (nf.nfLogic pkt fs' shared)

/-- States that are treated alike show the same. -/
theorem Alike.trace_eq {nf : NetworkFunction σ τ} {counters : σ → ω} {related : σ → σ → Prop}
    (h : Alike nf counters related) (inputs : List (Packet × (τ → τ))) {fs fs' : σ} (shared : τ)
    (hrelated : related fs fs') :
    trace nf counters inputs fs shared = trace nf counters inputs fs' shared := by
  induction inputs generalizing fs fs' shared with
  | nil => rfl
  | cons input _ ih =>
    obtain ⟨pkt, others⟩ := input
    have hagree := h.step pkt (others shared) hrelated
    rw [trace, trace, hagree.verdict, hagree.packet, h.counted hagree.state, hagree.shared, ih _ hagree.state]

end Trace

theorem alike_pktCounter : Alike pktCounter id Eq where
  counted := fun h ↦ h
  step := by
    rintro counter _ pkt shared rfl
    exact ⟨rfl, rfl, rfl, rfl⟩

/-- The server address is read only when there is a server. -/
def sameServer (fs fs' : LoadBalancerFs) : Prop :=
  fs.serverPos = fs'.serverPos ∧ (fs.serverPos ≠ -1 → fs = fs')

variable (pkt : Packet)

theorem nfLogicImpl_of_new {fs fs' : LoadBalancerFs} (h : fs.serverPos = -1)
    (h' : fs'.serverPos = -1) : LoadBalancer.nfLogicImpl pkt fs = LoadBalancer.nfLogicImpl pkt fs' := by
  funext shared
  rw [LoadBalancer.nfLogicImpl, LoadBalancer.nfLogicImpl, if_pos h, if_pos h']

theorem alike_loadBalancer : Alike loadBalancer (fun _ ↦ ()) sameServer where
  counted := fun _ ↦ rfl
  step := by
    intro fs fs' pkt shared hsame
    by_cases hnew : fs.serverPos = -1
    · have hlogic := nfLogicImpl_of_new pkt hnew (hsame.1.symm.trans hnew)
      cases hresult : shared.bind (LoadBalancer.nfLogicImpl pkt fs) with
      | none =>
        have hresult' : shared.bind (LoadBalancer.nfLogicImpl pkt fs') = none := hlogic ▸ hresult
        simp only [loadBalancer, hresult, hresult']
        exact ⟨rfl, rfl, hsame, rfl⟩
      | some result =>
        have hresult' : shared.bind (LoadBalancer.nfLogicImpl pkt fs') = some result := hlogic ▸ hresult
        simp only [loadBalancer, hresult, hresult']
        exact ⟨rfl, rfl, ⟨rfl, fun _ ↦ rfl⟩, rfl⟩
    · rw [hsame.2 hnew]
      exact ⟨rfl, rfl, ⟨rfl, fun _ ↦ rfl⟩, rfl⟩

/-- The address is read only when there is one. -/
def sameAddress (fs fs' : NatFs) : Prop :=
  fs.natStatus = fs'.natStatus ∧ (fs.natStatus = hasNatAllocation → fs = fs')

theorem agree_firstPacket (fs fs' : NatFs) (shared : NatSharedState) :
    Agree sameAddress (SourceNat.firstPacket pkt fs shared) (SourceNat.firstPacket pkt fs' shared) := by
  unfold SourceNat.firstPacket
  dsimp only
  split
  · exact ⟨rfl, rfl, ⟨rfl, fun h ↦ absurd h (show natAllocationException ≠ hasNatAllocation by decide)⟩, rfl⟩
  · exact ⟨rfl, rfl, ⟨rfl, fun _ ↦ rfl⟩, rfl⟩

theorem alike_nat : Alike nat (fun _ ↦ ()) sameAddress where
  counted := fun _ ↦ rfl
  step := by
    intro fs fs' pkt shared hsame
    show Agree sameAddress (SourceNat.nfLogicImpl pkt fs shared) (SourceNat.nfLogicImpl pkt fs' shared)
    unfold SourceNat.nfLogicImpl
    rw [← hsame.1]
    split
    · exact agree_firstPacket pkt fs fs' shared
    split
    · next hallocated =>
      rw [← hsame.2 hallocated]
      exact ⟨rfl, rfl, ⟨rfl, fun _ ↦ rfl⟩, rfl⟩
    split
    · exact ⟨rfl, rfl, hsame, rfl⟩
    · exact ⟨rfl, rfl, hsame, rfl⟩

/-- `passed_pkts` and `dropped_packets`. -/
def packetCounts (fs : FirewallFs) : UInt32 × UInt32 := (fs.passedPkts, fs.droppedPackets)

/-- The protocol is read only while the connection is up. -/
def sameConnection (fs fs' : FirewallFs) : Prop :=
  fs.connectionStatus = fs'.connectionStatus ∧
    (fs.connectionStatus = connectionUp → fs.protocol = fs'.protocol) ∧ packetCounts fs = packetCounts fs'

variable {fs fs' : FirewallFs} (shared : FirewallSharedState)

variable (h : packetCounts fs = packetCounts fs')

include h

theorem passedPkts_eq : fs.passedPkts = fs'.passedPkts := congrArg Prod.fst h

theorem droppedPackets_eq : fs.droppedPackets = fs'.droppedPackets := congrArg Prod.snd h

theorem sameConnection_reject : sameConnection (Firewall.reject fs).2 (Firewall.reject fs').2 := by
  refine ⟨rfl, fun hup ↦ absurd hup (by simp [Firewall.reject, badConnection, connectionUp]), ?_⟩
  simp only [Firewall.reject, packetCounts, passedPkts_eq h, droppedPackets_eq h]

omit h

theorem sameConnection_firstPacket (h : packetCounts fs = packetCounts fs') :
    (Firewall.firstPacket pkt fs shared).1 = (Firewall.firstPacket pkt fs' shared).1 ∧
      sameConnection (Firewall.firstPacket pkt fs shared).2 (Firewall.firstPacket pkt fs' shared).2 := by
  unfold Firewall.firstPacket
  dsimp only
  split
  · exact ⟨rfl, sameConnection_reject h⟩
  split
  · exact ⟨rfl, sameConnection_reject h⟩
  · refine ⟨rfl, rfl, fun _ ↦ rfl, ?_⟩
    simp only [packetCounts, passedPkts_eq h, droppedPackets_eq h]

theorem sameConnection_nextPacket (h : sameConnection fs fs') (hup : fs.connectionStatus = connectionUp) :
    sameConnection (Firewall.nextPacket pkt fs).2 (Firewall.nextPacket pkt fs').2 := by
  refine ⟨?_, fun _ ↦ h.2.1 hup, ?_⟩
  · simp only [Firewall.nextPacket, h.2.1 hup, h.1]
  · simp only [Firewall.nextPacket, packetCounts, passedPkts_eq h.2.2, droppedPackets_eq h.2.2]

theorem alike_firewall : Alike firewall packetCounts sameConnection where
  counted := fun h ↦ h.2.2
  step := by
    intro fs fs' pkt shared hsame
    suffices h : (Firewall.nfLogicImpl pkt fs shared).1 = (Firewall.nfLogicImpl pkt fs' shared).1 ∧
        sameConnection (Firewall.nfLogicImpl pkt fs shared).2 (Firewall.nfLogicImpl pkt fs' shared).2 from
      ⟨h.1, rfl, h.2, rfl⟩
    unfold Firewall.nfLogicImpl
    rw [← hsame.1]
    split
    · exact sameConnection_firstPacket pkt shared hsame.2.2
    split
    · next hup => exact ⟨rfl, sameConnection_nextPacket pkt hsame hup⟩
    split
    · exact ⟨rfl, sameConnection_reject hsame.2.2⟩
    split
    · exact ⟨rfl, sameConnection_reject hsame.2.2⟩
    · exact ⟨rfl, hsame⟩

/-- The status is one of the four values. -/
def KnownStatus (fs : FirewallFs) : Prop :=
  fs.connectionStatus = noConnection ∨ fs.connectionStatus = connectionUp ∨
    fs.connectionStatus = connectionDown ∨ fs.connectionStatus = badConnection

/-- A packet adds one to the counter of its verdict. -/
def countPacket (accepted : Bool) (counts : UInt32 × UInt32) : UInt32 × UInt32 :=
  if accepted then (counts.1 + 1, counts.2) else (counts.1, counts.2 + 1)

theorem countPacket_injective (accepted : Bool) : Function.Injective (countPacket accepted) := by
  rintro ⟨passed, dropped⟩ ⟨passed', dropped'⟩ h
  cases accepted with
  | true =>
    obtain ⟨hpassed, hdropped⟩ := Prod.mk.inj h
    exact Prod.ext ((UInt32.add_left_inj 1).1 hpassed) hdropped
  | false =>
    obtain ⟨hpassed, hdropped⟩ := Prod.mk.inj h
    exact Prod.ext hpassed ((UInt32.add_left_inj 1).1 hdropped)

theorem packetCounts_firstPacket (fs : FirewallFs) (shared : FirewallSharedState) :
    KnownStatus (Firewall.firstPacket pkt fs shared).2 ∧ packetCounts (Firewall.firstPacket pkt fs shared).2 =
        countPacket (Firewall.firstPacket pkt fs shared).1 (packetCounts fs) := by
  unfold Firewall.firstPacket
  dsimp only
  split
  · exact ⟨.inr (.inr (.inr rfl)), rfl⟩
  split
  · exact ⟨.inr (.inr (.inr rfl)), rfl⟩
  · exact ⟨.inr (.inl rfl), rfl⟩

theorem packetCounts_nextPacket (hup : fs.connectionStatus = connectionUp) :
    KnownStatus (Firewall.nextPacket pkt fs).2 ∧
      packetCounts (Firewall.nextPacket pkt fs).2 = countPacket true (packetCounts fs) := by
  refine ⟨?_, rfl⟩
  unfold KnownStatus Firewall.nextPacket
  dsimp only
  split
  · exact .inr (.inr (.inl rfl))
  · exact .inr (.inl hup)

/-- Every packet of a flow with a known status is counted once. -/
theorem packetCounts_nfLogicImpl (h : KnownStatus fs) :
    KnownStatus (Firewall.nfLogicImpl pkt fs shared).2 ∧ packetCounts (Firewall.nfLogicImpl pkt fs shared).2 =
        countPacket (Firewall.nfLogicImpl pkt fs shared).1 (packetCounts fs) := by
  unfold Firewall.nfLogicImpl
  split
  · exact packetCounts_firstPacket pkt fs shared
  split
  · next hup => exact packetCounts_nextPacket pkt hup
  split
  · exact ⟨.inr (.inr (.inr rfl)), rfl⟩
  split
  · exact ⟨.inr (.inr (.inr rfl)), rfl⟩
  · next hnone hup hdown hbad =>
    rcases h with h | h | h | h
    · exact absurd h hnone
    · exact absurd h hup
    · exact absurd h hdown
    · exact absurd h hbad

/-- The packets that a flow state accounts for. -/
def packetTotal (fs : FirewallFs) : ℕ := fs.passedPkts.toNat + fs.droppedPackets.toNat

theorem packetTotal_of_counted {accepted : Bool}
    (hcount : packetCounts fs' = countPacket accepted (packetCounts fs)) (hroom : packetTotal fs + 1 < 2 ^ 32) :
    packetTotal fs' = packetTotal fs + 1 := by
  unfold packetTotal at hroom ⊢
  have hpassed : fs'.passedPkts = (countPacket accepted (packetCounts fs)).1 := congrArg Prod.fst hcount
  have hdropped : fs'.droppedPackets = (countPacket accepted (packetCounts fs)).2 := congrArg Prod.snd hcount
  rw [hpassed, hdropped]
  cases accepted with
  | true =>
    simp only [countPacket, packetCounts, if_true, UInt32.toNat_add, UInt32.toNat_one]
    omega
  | false =>
    simp only [countPacket, packetCounts, Bool.false_eq_true, if_false, UInt32.toNat_add, UInt32.toNat_one]
    omega

theorem packetTotal_stateAfter (inputs : List (Packet × (FirewallSharedState → FirewallSharedState)))
    (shared : FirewallSharedState) (h : KnownStatus fs) (hroom : packetTotal fs + inputs.length < 2 ^ 32) :
    packetTotal (stateAfter firewall inputs fs shared) = packetTotal fs + inputs.length := by
  induction inputs generalizing fs shared with
  | nil => rfl
  | cons input rest ih =>
    obtain ⟨pkt, others⟩ := input
    obtain ⟨hknown, hcount⟩ := packetCounts_nfLogicImpl pkt (others shared) h
    rw [List.length_cons] at hroom
    have hnext := packetTotal_of_counted hcount (by omega)
    have hrest : packetTotal (Firewall.nfLogicImpl pkt fs (others shared)).2 + rest.length < 2 ^ 32 := by
      omega
    calc packetTotal (stateAfter firewall ((pkt, others) :: rest) fs shared)
        = packetTotal (Firewall.nfLogicImpl pkt fs (others shared)).2 + rest.length := ih _ hknown hrest
      _ = packetTotal fs + ((pkt, others) :: rest).length := by
          rw [hnext, List.length_cons]
          omega

theorem sameConnection_init (h : packetCounts fs = packetCounts fs') :
    sameConnection (firewall.nfInitFs fs) (firewall.nfInitFs fs') :=
  ⟨rfl, fun hup ↦ absurd hup (show noConnection ≠ connectionUp by decide), h⟩

/-- The first packet shows a difference between the previous counters. -/
theorem packetCounts_of_trace_eq
    (h : trace firewall packetCounts [(pkt,
      id)] (firewall.nfInitFs fs) shared = trace firewall packetCounts [(pkt, id)] (firewall.nfInitFs fs') shared) :
    packetCounts fs = packetCounts fs' := by
  obtain ⟨hverdict, hrest⟩ := Prod.mk.inj (List.cons.inj h).1
  obtain ⟨-, hcounts⟩ := Prod.mk.inj hrest
  have hcount := (packetCounts_nfLogicImpl pkt shared (.inl rfl : KnownStatus (Firewall.nfInitFsImpl fs))).2
  have hcount' := (packetCounts_nfLogicImpl pkt shared (.inl rfl : KnownStatus (Firewall.nfInitFsImpl fs'))).2
  apply countPacket_injective (Firewall.nfLogicImpl pkt (Firewall.nfInitFsImpl fs) shared).1
  calc countPacket _ (packetCounts fs)
      = packetCounts (Firewall.nfLogicImpl pkt (Firewall.nfInitFsImpl fs) shared).2 := hcount.symm
    _ = packetCounts (Firewall.nfLogicImpl pkt (Firewall.nfInitFsImpl fs') shared).2 := hcounts
    _ = countPacket _ (packetCounts fs') := hcount'
    _ = countPacket (Firewall.nfLogicImpl pkt (Firewall.nfInitFsImpl fs) shared).1 (packetCounts fs') :=
        congrArg (countPacket · (packetCounts fs')) hverdict.symm

theorem packetTotal_eq_zero_iff (fs : FirewallFs) : packetTotal fs = 0 ↔ packetCounts fs = (0, 0) := by
  unfold packetTotal packetCounts
  rw [Nat.add_eq_zero_iff, Prod.mk.injEq, ← UInt32.toNat_inj, ← UInt32.toNat_inj, UInt32.toNat_zero]

/-- Whatever a slot held before, a flow of `pkt_counter`, `load_balancer` or `nat` shows the same after
`nf_init_fs`. A flow of the firewall does so exactly when the previous counters were the same, and counts
exactly its own packets when they were zero. -/
theorem recycled_slots_independent (counter counter' : UInt64) (bound bound' : LoadBalancerFs)
    (translated translated' : NatFs) (filtered filtered' : FirewallFs) :
    (∀ inputs shared, trace pktCounter id inputs (pktCounter.nfInitFs counter) shared =
      trace pktCounter id inputs (pktCounter.nfInitFs counter') shared) ∧
    (∀ inputs shared, trace loadBalancer (fun _ ↦ ()) inputs (loadBalancer.nfInitFs bound) shared =
      trace loadBalancer (fun _ ↦ ()) inputs (loadBalancer.nfInitFs bound') shared) ∧
    (∀ inputs shared, trace nat (fun _ ↦ ()) inputs (nat.nfInitFs translated) shared =
      trace nat (fun _ ↦ ()) inputs (nat.nfInitFs translated') shared) ∧
    ((∀ inputs shared, trace firewall packetCounts inputs (firewall.nfInitFs filtered) shared =
      trace firewall packetCounts inputs (firewall.nfInitFs filtered') shared) ↔
      packetCounts filtered = packetCounts filtered') ∧
    ((∀ inputs shared, inputs.length < 2 ^ 32 →
      packetTotal (stateAfter firewall inputs (firewall.nfInitFs filtered) shared) = inputs.length) ↔
      packetCounts filtered = (0, 0)) := by
  refine ⟨fun inputs shared ↦ alike_pktCounter.trace_eq inputs shared rfl,
    fun inputs shared ↦ alike_loadBalancer.trace_eq inputs shared ⟨rfl, fun h ↦ absurd rfl h⟩,
    fun inputs shared ↦ alike_nat.trace_eq inputs shared
      ⟨rfl, fun h ↦ absurd h (show noNatAllocation ≠ hasNatAllocation by decide)⟩,
    ⟨fun h ↦ ?_, fun h inputs shared ↦ ?_⟩, ⟨fun h ↦ ?_, fun h inputs shared hlength ↦ ?_⟩⟩
  · exact packetCounts_of_trace_eq (.ofBytes 0 []) .initial (h _ _)
  · exact alike_firewall.trace_eq inputs shared (sameConnection_init h)
  · exact (packetTotal_eq_zero_iff filtered).1 (h [] .initial (by decide))
  · have hzero : packetTotal (firewall.nfInitFs filtered) = 0 := (packetTotal_eq_zero_iff _).2 h
    rw [packetTotal_stateAfter inputs shared (.inl rfl) (by omega), hzero, Nat.zero_add]

/-- The first packet of a UDP flow from an address that no rule names. -/
def udpPacket : Packet :=
  .ofBytes 128 (List.replicate 23 0 ++ [0x11, 0, 0, 10, 0, 0, 1, 10, 0, 0, 2] ++ List.replicate 14 0)

def freshSlot : FirewallFs := ⟨0, 0, 0, 0, 0, 0, 0, 0⟩

/-- The slot as a flow of one packet gives it back. -/
def usedSlot : FirewallFs :=
  stateAfter firewall [(udpPacket, id)] (firewall.nfInitFs freshSlot) .initial

/-- A flow in the used slot counts the packet of the flow before it. -/
theorem used_slot_counts_twice :
    trace firewall packetCounts [(udpPacket, id)] (firewall.nfInitFs freshSlot) .initial ≠
      trace firewall packetCounts [(udpPacket, id)] (firewall.nfInitFs usedSlot) .initial ∧
    packetTotal (stateAfter firewall [(udpPacket, id)] (firewall.nfInitFs usedSlot) .initial) = 2 := by
  decide +kernel

end NfvActor.Nf
