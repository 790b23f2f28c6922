import Mathlib.Tactic
import NfvActor.Reliable.PeerToPeer
import NfvActor.Utils.FastHashMap

/-!
# Acknowledging all peers

`send_reliable_ack` turns the list of peers once around, checks every peer and collects the acknowledgements in
one batch, with the gate of each. It runs to its end exactly when the batch has room for all of them.
-/

namespace NfvActor.Reliable

open Foundation Utils
open Function

/-- `reliables_`: the map and the objects behind its pointers, none of them shared. -/
structure Reliables (N : ℕ) where
  map : FastHashMap UInt32 ℕ
  peers : ℕ → PeerToPeer N
  synced : map.Synced
  distinct : (map.addrs.map fun addr ↦ map.valPtr (.item addr)).Nodup

/-- The loop of `RunTask` with `batch` and `out_gates`, which share their count; `checked` are the pointers on
which `check` was called. -/
structure AckLoop (N : ℕ) where
  map : FastHashMap UInt32 ℕ
  peers : ℕ → PeerToPeer N
  checked : List ℕ
  batch : List (UInt16 × Segment Packet)

namespace AckLoop

variable {N : ℕ}

/-- One turn. A null pointer and an overrun are faults. -/
def iterate (loop : AckLoop N) (currentNs : UInt64) : Option (AckLoop N) :=
  match loop.map.next with
  | (none, _) => none
  | (some r, map) => do
    let (ack, p2p) ← ((loop.peers r).check currentNs).2.getAckPkt true
    let loop' : AckLoop N :=
      { loop with map := map, peers := update loop.peers r p2p, checked := loop.checked ++ [r] }
    match ack with
    | none => some loop'
    | some ackPkt =>
      if loop.batch.length < kMaxBurst then
        some { loop' with batch := loop.batch ++ [(p2p.outputGate, ackPkt)] }
      else
        none

def iterations (currentNs : UInt64) : ℕ → AckLoop N → Option (AckLoop N)
  | 0, loop => some loop
  | turns + 1, loop => (loop.iterate currentNs).bind (iterations currentNs turns)

end AckLoop

namespace PeerToPeer

variable {N : ℕ} {p2p : PeerToPeer N}

/-- The expected number has moved since the last acknowledgement. -/
def OwesAck (p2p : PeerToPeer N) : Prop := p2p.nextSeqNumToRecv ≠ p2p.nextSeqNumToRecvSnapshot

instance (p2p : PeerToPeer N) : Decidable p2p.OwesAck := inferInstanceAs (Decidable (_ ≠ _))

/-- The acknowledgement of a peer, with its gate. -/
def ackOf (p2p : PeerToPeer N) : UInt16 × Segment Packet :=
  (p2p.outputGate, ⟨⟨p2p.ackFrame, ackMagicNum, p2p.nextSeqNumToRecv⟩, Packet.ofBytes 0 []⟩)

theorem getAckPkt_of_owesAck (howes : p2p.OwesAck) :
    p2p.getAckPkt true = some (some p2p.ackOf.2, { p2p with nextSeqNumToRecvSnapshot := p2p.nextSeqNumToRecv }) := by
  rw [getAckPkt, if_neg howes.symm]
  rfl

theorem getAckPkt_of_not_owesAck (hquiet : ¬p2p.OwesAck) : p2p.getAckPkt true = some (none, p2p) := by
  rw [getAckPkt, if_pos (not_not.1 hquiet).symm]

end PeerToPeer

namespace Reliables

variable {N : ℕ} (reliables : Reliables N)

/-- `RunTask`, up to the call of `RunSplit`. -/
def runTask (currentNs : UInt64) : Option (AckLoop N) :=
  AckLoop.iterations currentNs reliables.map.cnt ⟨reliables.map, reliables.peers, [], []⟩

/-- The pointers of the map, one per key. -/
def pointers : List ℕ := reliables.map.addrs.map fun addr ↦ reliables.map.valPtr (.item addr)

end Reliables

/-- The acknowledgements that these peers owe once checked. -/
def acksOf {N : ℕ} (peers : ℕ → PeerToPeer N) (currentNs : UInt64) (pointers : List ℕ) :
    List (UInt16 × Segment Packet) :=
  ((pointers.map fun r ↦ ((peers r).check currentNs).2).filter fun p2p ↦ p2p.OwesAck).map PeerToPeer.ackOf

section Loop

variable {N : ℕ} {peers : ℕ → PeerToPeer N} {currentNs : UInt64} {r : ℕ} {pointers : List ℕ}

theorem acksOf_cons :
    acksOf peers currentNs (r :: pointers) = acksOf peers currentNs [r] ++ acksOf peers currentNs pointers := by
  unfold acksOf
  rw [← List.map_append, ← List.filter_append]
  rfl

theorem acksOf_perm (peers : ℕ → PeerToPeer N) (currentNs : UInt64) {others : List ℕ} (hperm : pointers.Perm others) :
    (acksOf peers currentNs pointers).Perm (acksOf peers currentNs others) :=
  ((hperm.map _).filter _).map _

/-- Serving one peer does not change what the others owe. -/
theorem acksOf_update {p2p : PeerToPeer N} (hother : r ∉ pointers) :
    acksOf (update peers r p2p) currentNs pointers = acksOf peers currentNs pointers := by
  have hsame : (pointers.map fun other ↦ ((update peers r p2p other).check currentNs).2) =
      pointers.map fun other ↦ ((peers other).check currentNs).2 := by
    apply List.map_congr_left
    intro other hmem
    have hne : other ≠ r := fun heq ↦ hother (heq ▸ hmem)
    rw [update_of_ne hne]
  rw [acksOf, hsame, acksOf]

namespace AckLoop

variable {loop : AckLoop N} {addr : ℕ} {rest addrs : List ℕ}

/-- A turn over a list whose first item points to `r`. -/
theorem iterate_cons (hlists : loop.map.Lists (addr :: rest)) (hr : loop.map.valPtr (.item addr) = r)
    (hbatch : loop.batch.length ≤ kMaxBurst) (currentNs : UInt64) :
    ∃ p2p, loop.iterate currentNs = if (loop.batch ++ acksOf loop.peers currentNs [r]).length ≤ kMaxBurst then
        some ⟨loop.map.next.2, update loop.peers r p2p, loop.checked ++ [r],
          loop.batch ++ acksOf loop.peers currentNs [r]⟩
      else none := by
  have hnext : loop.map.next = (some r, loop.map.next.2) := Prod.ext (hlists.next_cons.1.trans (hr ▸ rfl)) rfl
  unfold iterate
  rw [hnext]
  by_cases howes : ((loop.peers r).check currentNs).2.OwesAck
  · have hacks : acksOf loop.peers currentNs [r] = [((loop.peers r).check currentNs).2.ackOf] := by
      simp only [acksOf, List.map_cons, List.map_nil, List.filter_cons, howes, decide_true, if_true,
        List.filter_nil]
    dsimp only
    rw [hacks, PeerToPeer.getAckPkt_of_owesAck howes, List.length_append]
    exact ⟨_, rfl⟩
  · have hacks : acksOf loop.peers currentNs [r] = [] := by
      simp only [acksOf, List.map_cons, List.map_nil, List.filter_cons, howes, decide_false, Bool.false_eq_true,
        if_false, List.filter_nil]
    dsimp only
    rw [hacks, PeerToPeer.getAckPkt_of_not_owesAck howes, List.append_nil]
    exact ⟨_, (if_pos hbatch).symm⟩

/-- The loop serves the first peers in order as long as their acknowledgements fit. -/
theorem iterations_eq (loop : AckLoop N) (currentNs : UInt64) {turns : ℕ} (hlists : loop.map.Lists addrs)
    (hturns : turns ≤ addrs.length) (hnodup : (addrs.map fun addr ↦ loop.map.valPtr (.item addr)).Nodup)
    (hbatch : loop.batch.length ≤ kMaxBurst) :
    let visited := (addrs.take turns).map fun addr ↦ loop.map.valPtr (.item addr)
    let acks := acksOf loop.peers currentNs visited
    (iterations currentNs turns loop).map (fun loop ↦ (loop.checked, loop.batch)) =
      if (loop.batch ++ acks).length ≤ kMaxBurst then some (loop.checked ++ visited, loop.batch ++ acks)
      else none := by
  induction turns generalizing loop addrs with
  | zero =>
    simp [iterations, acksOf, hbatch]
  | succ turns ih =>
    cases addrs with
    | nil => cases hturns
    | cons addr rest =>
      intro visited acks
      let r := loop.map.valPtr (.item addr)
      let others := (rest.take turns).map fun addr ↦ loop.map.valPtr (.item addr)
      have hrest : turns ≤ rest.length := Nat.le_of_succ_le_succ hturns
      have hacks : acks = acksOf loop.peers currentNs [r] ++ acksOf loop.peers currentNs others := acksOf_cons
      have hother : r ∉ others := by
        intro hmem
        apply (List.nodup_cons.1 hnodup).1
        exact List.map_subset _ (List.take_subset turns rest) hmem
      obtain ⟨p2p, hturn⟩ := iterate_cons (r := r) hlists rfl hbatch currentNs
      let loop' : AckLoop N := ⟨loop.map.next.2, update loop.peers r p2p, loop.checked ++ [r],
        loop.batch ++ acksOf loop.peers currentNs [r]⟩
      have hjoin : loop'.batch ++ acksOf loop'.peers currentNs others = loop.batch ++ acks := by
        rw [hacks, ← List.append_assoc, acksOf_update hother]
      rw [iterations, hturn]
      split
      · next hfits =>
        have hlists' : loop'.map.Lists (rest ++ [addr]) := hlists.next_cons.2
        have hih := ih loop' hlists' (hrest.trans (by simp))
          (((List.perm_append_singleton addr rest).map _).nodup_iff.2 hnodup) hfits
        rw [List.take_append_of_le_length hrest] at hih
        change _ = if (loop'.batch ++ acksOf loop'.peers currentNs others).length ≤ kMaxBurst then
          some (loop.checked ++ [r] ++ others, loop'.batch ++ acksOf loop'.peers currentNs others) else none at hih
        rw [hjoin, List.append_assoc] at hih
        exact hih
      · next hfull =>
        have hover : ¬(loop.batch ++ acks).length ≤ kMaxBurst := by
          rw [← hjoin, List.length_append]
          exact fun hle ↦ hfull ((Nat.le_add_right _ _).trans hle)
        rw [if_neg hover]
        rfl

end AckLoop

end Loop

namespace Reliables

variable {N : ℕ}

theorem runTask_eq (reliables : Reliables N) (currentNs : UInt64) : ∃ visited : List ℕ,
    visited.Perm reliables.pointers ∧ (reliables.runTask currentNs).map (fun loop ↦ (loop.checked, loop.batch)) =
      if (acksOf reliables.peers currentNs visited).length ≤ kMaxBurst then
        some (visited, acksOf reliables.peers currentNs visited)
      else none := by
  obtain ⟨addrs, hlists, hperm⟩ := reliables.synced.lists
  have hcnt : reliables.map.cnt = addrs.length := by
    rw [hperm.length_eq, FastHashMap.addrs, List.length_map]
    rfl
  have hvisited := hperm.map fun addr ↦ reliables.map.valPtr (.item addr)
  have hnodup := hvisited.nodup_iff.2 reliables.distinct
  have hloop := AckLoop.iterations_eq ⟨reliables.map, reliables.peers, [], []⟩ currentNs hlists hcnt.le hnodup
    (Nat.zero_le _)
  simp only [hcnt, List.take_length, List.nil_append] at hloop
  refine ⟨_, hvisited, ?_⟩
  rw [runTask, hcnt]
  exact hloop

/-- The loop reaches its end exactly when the acknowledgements fit into a batch. Every peer has then been
checked once, and the batch holds the acknowledgement of every peer that owes one, with its gate, and no others.
-/
theorem acks_for_all_peers_iff (reliables : Reliables N) (currentNs : UInt64) :
    (∃ loop, reliables.runTask currentNs = some loop ∧ loop.checked.Nodup ∧
      loop.checked.Perm reliables.pointers ∧
      loop.batch.Perm (acksOf reliables.peers currentNs reliables.pointers) ∧ loop.batch.length ≤ kMaxBurst) ↔
      (acksOf reliables.peers currentNs reliables.pointers).length ≤ kMaxBurst := by
  obtain ⟨visited, hvisited, hrun⟩ := reliables.runTask_eq currentNs
  have hacks := acksOf_perm reliables.peers currentNs hvisited
  constructor
  · intro hends
    obtain ⟨loop, -, -, -, hbatch, hburst⟩ := hends
    rw [← hbatch.length_eq]
    exact hburst
  · intro hfits
    rw [← hacks.length_eq] at hfits
    rw [if_pos hfits] at hrun
    obtain ⟨loop, hloop, hends⟩ := Option.map_eq_some_iff.1 hrun
    obtain ⟨hchecked, hbatch⟩ := Prod.mk.inj hends
    rw [← hbatch] at hacks hfits
    rw [← hchecked] at hvisited
    exact ⟨loop, hloop, hvisited.nodup_iff.2 reliables.distinct, hvisited, hacks, hfits⟩

/-- An item points to the object whose number is its address. -/
def ownAddr : MapNode → ℕ
  | .head => 0
  | .item addr => addr

/-- A map into which this many pointers were put. -/
theorem exists_map {count : ℕ} (hcount : count ≤ 2 ^ 32) :
    ∃ map : FastHashMap UInt32 ℕ, map.Synced ∧ map.valPtr = ownAddr ∧
      map.htable.entries = (List.range count).reverse.map fun addr ↦ ⟨UInt32.ofNat addr, addr⟩ := by
  induction count with
  | zero => exact ⟨.empty ⟨fun _ ↦ .head, fun _ ↦ .head⟩ ownAddr, FastHashMap.synced_empty _ _, rfl, rfl⟩
  | succ count ih =>
    obtain ⟨map, hsynced, hvalPtr, hentries⟩ := ih (Nat.le_of_succ_le hcount)
    have hkey : UInt32.ofNat count ∉ map.htable := by
      change _ ∉ map.htable.entries.keys
      rw [hentries, List.keys, List.map_map, List.map_reverse, List.mem_reverse, List.mem_map]
      rintro ⟨addr, haddr, heq⟩
      rw [List.mem_range] at haddr
      have hmod := congrArg UInt32.toNat heq
      simp only [Function.comp_apply, UInt32.toNat_ofNat'] at hmod
      omega
    have hfree : count ∉ map.heap := by
      rw [hsynced.heap, FastHashMap.addrs, hentries, List.map_map]
      simp
    have hemplace : ∃ map', map.emplace (UInt32.ofNat count) count ⟨count, .head, .head⟩ = some (some count, map') ∧
        map'.valPtr = update map.valPtr (.item count) count ∧
        map'.htable = map.htable.insert (UInt32.ofNat count) count := by
      rw [← AList.lookup_isSome] at hkey
      rw [FastHashMap.emplace, if_neg hkey, if_neg hfree]
      exact ⟨_, rfl, rfl, rfl⟩
    obtain ⟨map', hmap', hnew, htable⟩ := hemplace
    refine ⟨map', hsynced.emplace hmap', ?_, ?_⟩
    · rw [hnew, hvalPtr]
      exact update_eq_self (.item count) ownAddr
    · rw [htable, AList.entries_insert_of_notMem hkey, hentries, List.range_succ, List.reverse_append]
      rfl

/-- A peer from which one packet has been received and not acknowledged. -/
def afterOnePacket : PeerToPeer 4 :=
  { PeerToPeer.init 2 0 [] 0 (.init (fun _ ↦ ⟨⟨[], 0, 0⟩, .ofBytes 0 []⟩) (fun _ ↦ 0) fun _ ↦ [])
      ⟨2, .ofPacket (.ofBytes 0 []), none, [], none, []⟩ with nextSeqNumToRecv := 2 }

theorem thirty_three_acks_overrun : ∃ reliables : Reliables 4,
    reliables.pointers.length = 33 ∧ (∀ r, reliables.peers r = afterOnePacket) ∧ reliables.runTask 0 = none := by
  obtain ⟨map, hsynced, hvalPtr, hentries⟩ := exists_map (show 33 ≤ 2 ^ 32 by decide)
  have hpointers : (map.addrs.map fun addr ↦ map.valPtr (.item addr)) = (List.range 33).reverse := by
    rw [FastHashMap.addrs, hentries, hvalPtr, List.map_map, List.map_map]
    exact List.map_id _
  let reliables : Reliables 4 :=
    ⟨map, fun _ ↦ afterOnePacket, hsynced, hpointers ▸ List.nodup_reverse.2 List.nodup_range⟩
  obtain ⟨visited, hvisited, hrun⟩ := reliables.runTask_eq 0
  have hlength : visited.length = 33 := by
    rw [hvisited.length_eq, pointers, hpointers]
    rfl
  have howes : ∀ pointers : List ℕ, (acksOf reliables.peers 0 pointers).length = pointers.length := by
    intro pointers
    induction pointers with
    | nil => rfl
    | cons _ _ ih =>
      rw [acksOf_cons, List.length_append, ih, List.length_cons, Nat.add_comm]
      rfl
  rw [if_neg (by rw [howes, hlength]; decide)] at hrun
  exact ⟨reliables, by rw [← hvisited.length_eq, hlength], fun _ ↦ rfl, Option.map_eq_none_iff.1 hrun⟩

end Reliables

end NfvActor.Reliable
