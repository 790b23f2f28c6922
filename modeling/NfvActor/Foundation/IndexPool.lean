import Mathlib.Tactic
import NfvActor.Foundation.RingBuffer

/-!
# Pools of indices behind a ring

An allocator keeps the free ones among the indices below its capacity in a ring. The indices that are
handed out form a finite set: popping the ring inserts one, pushing an outstanding index erases it.
Quantities that belong to the outstanding indices are summed over that set, and the lemmas at the end say
how such a sum changes when an index is handed out, given back, or changes its value.
-/

namespace NfvActor.Foundation

open Function

namespace RingBuffer

/-- The ring holds distinct indices below its capacity. -/
structure IsPool (ring : RingBuffer ℕ) : Prop where
  nodup : ring.contents.Nodup
  bound : ∀ index ∈ ring.contents, index < ring.maxSize

/-- The indices that are not in the ring. -/
def outstanding (ring : RingBuffer ℕ) : Finset ℕ :=
  (Finset.range ring.maxSize).filter fun index ↦ index ∉ ring.contents

theorem mem_outstanding {ring : RingBuffer ℕ} {index : ℕ} :
    index ∈ ring.outstanding ↔ index < ring.maxSize ∧ index ∉ ring.contents := by
  simp [outstanding]

theorem isPool_filled (maxSize : ℕ) (hpos : 0 < maxSize) : (filled maxSize hpos id).IsPool := by
  constructor
  · simpa using List.nodup_range
  · intro index hindex
    rw [contents_filled, List.map_id, List.mem_range] at hindex
    exact hindex

theorem outstanding_filled (maxSize : ℕ) (hpos : 0 < maxSize) : (filled maxSize hpos id).outstanding = ∅ := by
  apply Finset.eq_empty_of_forall_notMem
  intro index hindex
  obtain ⟨hlt, hout⟩ := mem_outstanding.1 hindex
  rw [contents_filled, List.map_id, List.mem_range] at hout
  exact hout hlt

namespace IsPool

variable {ring ring' : RingBuffer ℕ} {index : ℕ}

theorem pop (hpool : ring.IsPool) (hpop : ring.pop = some (index, ring')) :
    ring'.IsPool ∧ index ∉ ring.outstanding ∧ ring'.outstanding = insert index ring.outstanding := by
  obtain ⟨hcontents, hmax⟩ := contents_pop hpop
  have hnodup := hpool.nodup
  have hbound := hpool.bound
  rw [hcontents] at hnodup hbound
  obtain ⟨hfresh, hnodup'⟩ := List.nodup_cons.1 hnodup
  have hindex : index < ring.maxSize := hbound index List.mem_cons_self
  refine ⟨⟨hnodup', ?_⟩, ?_, ?_⟩
  · intro other hother
    rw [hmax]
    exact hbound other (List.mem_cons_of_mem _ hother)
  · rw [mem_outstanding, hcontents]
    exact fun h ↦ h.2 List.mem_cons_self
  · ext other
    rw [Finset.mem_insert, mem_outstanding, mem_outstanding, hmax, hcontents, List.mem_cons, not_or]
    constructor
    · intro h
      by_cases heq : other = index
      · exact .inl heq
      · exact .inr ⟨h.1, heq, h.2⟩
    · rintro (rfl | h)
      · exact ⟨hindex, hfresh⟩
      · exact ⟨h.1, h.2.2⟩

/-- The outstanding indices and those in the ring make up the pool. -/
theorem card_outstanding (hpool : ring.IsPool) : ring.outstanding.card + ring.curSize = ring.maxSize := by
  have hsubset : ring.contents.toFinset ⊆ Finset.range ring.maxSize := by
    intro other hother
    exact Finset.mem_range.2 (hpool.bound other (List.mem_toFinset.1 hother))
  have hsdiff : ring.outstanding = Finset.range ring.maxSize \ ring.contents.toFinset := by
    ext other
    simp [mem_outstanding]
  have hcard : ring.contents.toFinset.card = ring.curSize := by
    rw [List.toFinset_card_of_nodup hpool.nodup, length_contents]
  have hle := Finset.card_le_card hsubset
  rw [hsdiff, Finset.card_sdiff_of_subset hsubset, hcard, Finset.card_range]
  rw [hcard, Finset.card_range] at hle
  omega

theorem room (hpool : ring.IsPool) (hindex : index ∈ ring.outstanding) : ring.curSize < ring.maxSize := by
  have hcard := hpool.card_outstanding
  have hpos := Finset.card_pos.2 ⟨index, hindex⟩
  omega

theorem push (hpool : ring.IsPool) (hindex : index ∈ ring.outstanding) :
    (ring.push index).2.IsPool ∧ (ring.push index).2.outstanding = ring.outstanding.erase index ∧
      (ring.push index).2.contents = ring.contents ++ [index] := by
  have hcontents := (contents_push index (hpool.room hindex)).2
  obtain ⟨hlt, hout⟩ := mem_outstanding.1 hindex
  refine ⟨⟨?_, ?_⟩, ?_, hcontents⟩
  · rw [hcontents, List.nodup_append]
    refine ⟨hpool.nodup, List.nodup_singleton _, ?_⟩
    intro other hother other' hother' heq
    rw [List.mem_singleton] at hother'
    exact hout (hother' ▸ heq ▸ hother)
  · intro other hother
    rw [maxSize_push]
    rw [hcontents, List.mem_append, List.mem_singleton] at hother
    rcases hother with hother | rfl
    · exact hpool.bound other hother
    · exact hlt
  · ext other
    rw [Finset.mem_erase, mem_outstanding, mem_outstanding, maxSize_push, hcontents, List.mem_append,
      List.mem_singleton, not_or]
    tauto

end IsPool

/-! ## Indices in the hands of owners -/

section Owned

variable {ι β : Type*}

/-- Every index is in the ring or in the list of exactly one owner, once, with a value. -/
structure Owned (ring : RingBuffer ℕ) (held : ι → List (ℕ × β)) : Prop where
  pool : ring.IsPool
  nodup : ∀ owner, ((held owner).map Prod.fst).Nodup
  unique : ∀ index owner owner', index ∈ (held owner).map Prod.fst →
    index ∈ (held owner').map Prod.fst → owner = owner'
  outstanding : ∀ index, index ∈ ring.outstanding ↔ ∃ owner, index ∈ (held owner).map Prod.fst

namespace Owned

variable {ring ring' : RingBuffer ℕ} {held : ι → List (ℕ × β)} {owner : ι} {index : ℕ}

theorem filled (maxSize : ℕ) (hpos : 0 < maxSize) :
    (RingBuffer.filled maxSize hpos id).Owned fun _ : ι ↦ ([] : List (ℕ × β)) where
  pool := isPool_filled maxSize hpos
  nodup := fun _ ↦ List.nodup_nil
  unique := fun _ _ _ hmem ↦ absurd hmem List.not_mem_nil
  outstanding := by
    intro index
    rw [outstanding_filled]
    simp

variable [DecidableEq ι]

/-- An owner takes the first index of the ring. -/
theorem take (h : ring.Owned held) (hpop : ring.pop = some (index, ring')) (value : β) :
    ring'.Owned (update held owner (held owner ++ [(index, value)])) := by
  obtain ⟨hpool, hfresh, houtstanding⟩ := h.pool.pop hpop
  have hunheld : ∀ other, index ∉ (held other).map Prod.fst :=
    fun other hmem ↦ hfresh ((h.outstanding index).2 ⟨other, hmem⟩)
  have hmem : ∀ other entry, entry ∈ (update held owner (held owner ++ [(index, value)]) other).map Prod.fst ↔
        entry ∈ (held other).map Prod.fst ∨ other = owner ∧ entry = index := by
    intro other entry
    by_cases heq : other = owner
    · rw [heq, update_self]
      simp
    · rw [update_of_ne heq]
      simp [heq]
  refine ⟨hpool, fun other ↦ ?_, fun entry other other' hin hin' ↦ ?_, fun entry ↦ ?_⟩
  · by_cases heq : other = owner
    · rw [heq, update_self, List.map_append, List.nodup_append]
      refine ⟨h.nodup owner, List.nodup_singleton _, fun entry hentry entry' hentry' hsame ↦ ?_⟩
      rw [hsame, List.mem_singleton.1 hentry'] at hentry
      exact hunheld owner hentry
    · rw [update_of_ne heq]
      exact h.nodup other
  · rcases (hmem other entry).1 hin with hheld | ⟨rfl, rfl⟩ <;>
      rcases (hmem other' _).1 hin' with hheld' | ⟨rfl, heq⟩
    · exact h.unique entry other other' hheld hheld'
    · exact absurd (heq ▸ hheld) (hunheld other)
    · exact absurd hheld' (hunheld other')
    · rfl
  · rw [houtstanding, Finset.mem_insert, h.outstanding]
    simp only [hmem, exists_or, exists_eq_left]
    exact or_comm

/-- An owner gives its first index back. -/
theorem giveBack (h : ring.Owned held) {value : β} {rest : List (ℕ × β)}
    (hheld : held owner = (index, value) :: rest) : (ring.push index).2.Owned (update held owner rest) := by
  have hindex : index ∈ (held owner).map Prod.fst := by simp [hheld]
  obtain ⟨hpool, houtstanding, -⟩ := h.pool.push ((h.outstanding index).2 ⟨owner, hindex⟩)
  have hnodup := h.nodup owner
  rw [hheld, List.map_cons, List.nodup_cons] at hnodup
  have hmem : ∀ other entry, entry ∈ (update held owner rest other).map Prod.fst ↔
      entry ∈ (held other).map Prod.fst ∧ entry ≠ index := by
    intro other entry
    by_cases heq : other = owner
    · rw [heq, update_self, hheld, List.map_cons, List.mem_cons]
      constructor
      · intro hin
        exact ⟨.inr hin, fun hsame ↦ hnodup.1 (hsame ▸ hin)⟩
      · exact fun hin ↦ hin.1.resolve_left hin.2
    · rw [update_of_ne heq]
      refine ⟨fun hin ↦ ⟨hin, ?_⟩, And.left⟩
      rintro rfl
      exact heq (h.unique entry other owner hin hindex)
  refine ⟨hpool, fun other ↦ ?_, fun entry other other' hin hin' ↦ ?_, fun entry ↦ ?_⟩
  · by_cases heq : other = owner
    · rw [heq, update_self]
      exact hnodup.2
    · rw [update_of_ne heq]
      exact h.nodup other
  · exact h.unique entry other other' ((hmem other entry).1 hin).1 ((hmem other' entry).1 hin').1
  · rw [houtstanding, Finset.mem_erase, h.outstanding]
    simp only [hmem, exists_and_right]
    exact and_comm

/-- An owner gives all its indices back, first index first. -/
theorem giveBackAll (h : ring.Owned held) (owner : ι) :
    ((held owner).foldl (fun ring entry ↦ (ring.push entry.1).2) ring).Owned (update held owner []) := by
  generalize hheld : held owner = entries
  induction entries generalizing ring held with
  | nil =>
    have hsame : update held owner [] = held := by rw [← hheld, update_eq_self]
    rw [hsame]
    exact h
  | cons _ _ ih =>
    have hrest := ih (h.giveBack hheld) (update_self _ _ _)
    rwa [update_idem] at hrest

end Owned

end Owned

end RingBuffer

section Sums

variable {α : Type*} {M : Type*} [AddCommMonoid M] (weight : α → M) (values : ℕ → α) (s : Finset ℕ)
  {index : ℕ}

theorem sum_update_of_notMem (value : α) (hindex : index ∉ s) :
    ∑ i ∈ s, weight (update values index value i) = ∑ i ∈ s, weight (values i) := by
  apply Finset.sum_congr rfl
  intro i hi
  have hne : i ≠ index := by
    rintro rfl
    exact hindex hi
  rw [update_of_ne hne]

/-- An index is handed out with a new value. -/
theorem sum_insert_update (value : α) (hindex : index ∉ s) :
    ∑ i ∈ insert index s, weight (update values index value i) =
      weight value + ∑ i ∈ s, weight (values i) := by
  rw [Finset.sum_insert hindex, update_self, sum_update_of_notMem weight values s value hindex]

/-- An index is given back, whatever becomes of its value. -/
theorem sum_erase_update (value : α) (hindex : index ∈ s) :
    weight (values index) + ∑ i ∈ s.erase index, weight (update values index value i) =
      ∑ i ∈ s, weight (values i) := by
  rw [sum_update_of_notMem weight values _ value (Finset.notMem_erase index s)]
  exact Finset.add_sum_erase s (fun i ↦ weight (values i)) hindex

end Sums

end NfvActor.Foundation
