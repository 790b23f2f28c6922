import Mathlib.Tactic
import NfvActor.Foundation.CircularList
import NfvActor.Foundation.RingBuffer

/-!
# List nodes drawn from a pool

Numbered nodes are handed out by a free ring and hooked into one of several circular lists. The
partition invariant says that every node of the pool is in exactly one place: once in the free ring, or
once on exactly one list. Taking a node, giving one back and rotating a list keep it.
-/

namespace NfvActor.Foundation

open Function

universe u

/-- A list head or a pool node. -/
inductive PoolNode (κ : Type u)
  | head (list : κ)
  | item (index : ℕ)
deriving DecidableEq

namespace PoolNode

variable {κ : Type u}

/-- A pointer read as a pointer to a node; a head is outside the model. -/
def toItem : Option (PoolNode κ) → Option (Option ℕ)
  | none => some none
  | some (.item index) => some (some index)
  | some (.head _) => none

end PoolNode

open PoolNode

/-- Walk along a list from `node` to the first node that satisfies the predicate. -/
def search {κ : Type u} [DecidableEq κ] (links : Links (PoolNode κ)) (list : κ) (pred : ℕ → Bool) :
    ℕ → PoolNode κ → Option (Option ℕ)
  | 0, _ => none
  | fuel + 1, node =>
    if node = head list then some none
    else match node with
      | .item index =>
        if pred index then some (some index) else search links list pred fuel (links.next node)
      | .head _ => none

/-- Every node below the capacity is free or on exactly one list. -/
structure Partition {κ : Type u} (free : RingBuffer ℕ) (links : Links (PoolNode κ))
    (lists : κ → List ℕ) : Prop where
  rings : links.Rings head fun list ↦ (lists list).map item
  free_nodup : free.contents.Nodup
  free_unlinked : ∀ index ∈ free.contents, ∀ list, index ∉ lists list
  covered : ∀ index, index < free.maxSize ↔ index ∈ free.contents ∨ ∃ list, index ∈ lists list

namespace Partition

variable {κ : Type u} {free : RingBuffer ℕ} {links : Links (PoolNode κ)} {lists : κ → List ℕ}

theorem nodup_list (hpart : Partition free links lists) (list : κ) : (lists list).Nodup := by
  have hnodup := (List.nodup_cons.1 (hpart.rings.ring list).nodup).2
  exact List.Nodup.of_map item hnodup

variable {list : κ} {index : ℕ} {free' : RingBuffer ℕ}

theorem eq_of_mem (hpart : Partition free links lists) {other : κ} (hlist : index ∈ lists list)
    (hother : index ∈ lists other) : list = other :=
  hpart.rings.eq_of_mem (List.mem_cons_of_mem _ (List.mem_map_of_mem hlist))
    (List.mem_cons_of_mem _ (List.mem_map_of_mem hother))

theorem initial (maxSize : ℕ) (hpos : 0 < maxSize) :
    Partition (RingBuffer.filled maxSize hpos id) (Links.detached : Links (PoolNode κ)) fun _ ↦ [] where
  rings := Links.Rings.detached fun _ _ heq ↦ PoolNode.head.inj heq
  free_nodup := by
    rw [RingBuffer.contents_filled, List.map_id]
    exact List.nodup_range
  free_unlinked := by simp
  covered := by
    intro index
    rw [RingBuffer.contents_filled, List.map_id, List.mem_range]
    simp [RingBuffer.filled]

theorem peekFirst [DecidableEq κ] (hpart : Partition free links lists) (list : κ) :
    toItem (links.peekFirst (head list)) = some (lists list).head? := by
  rw [Links.peekFirst_eq (hpart.rings.ring list), List.head?_map]
  cases (lists list).head? <;> rfl

theorem peekLast [DecidableEq κ] (hpart : Partition free links lists) (list : κ) :
    toItem (links.peekLast (head list)) = some (lists list).getLast? := by
  rw [Links.peekLast_eq (hpart.rings.ring list), List.getLast?_map]
  cases (lists list).getLast? <;> rfl

theorem search_path [DecidableEq κ] {pred : ℕ → Bool} {node : PoolNode κ} {xs : List ℕ}
    (hpath : links.Path node (xs.map item) (head list)) {fuel : ℕ} (hfuel : xs.length < fuel) :
    search links list pred fuel (links.next node) = some (xs.find? pred) := by
  induction xs generalizing node fuel with
  | nil =>
    obtain ⟨fuel, rfl⟩ : ∃ rest, fuel = rest + 1 := ⟨fuel - 1, by omega⟩
    have hnext : links.next node = head list := hpath.1
    rw [hnext, search, if_pos rfl]
    rfl
  | cons index _ ih =>
    obtain ⟨fuel, rfl⟩ : ∃ rest, fuel = rest + 1 := ⟨fuel - 1, by omega⟩
    obtain ⟨hadjacent, hpath⟩ := hpath
    rw [hadjacent.1, search, if_neg (by simp), List.find?_cons]
    cases hpred : pred index with
    | true => simp
    | false =>
      rw [List.length_cons] at hfuel
      simpa [hpred] using ih hpath (by omega)

variable (hpart : Partition free links lists)

include hpart

/-- Searching a list finds its first node that satisfies the predicate. -/
theorem search_eq_find [DecidableEq κ] (list : κ) (pred : ℕ → Bool) :
    search links list pred (free.maxSize + 1) (links.next (head list)) = some ((lists list).find? pred) := by
  apply search_path (hpart.rings.ring list).path
  have hsubset : lists list ⊆ List.range free.maxSize := by
    intro index hmem
    rw [List.mem_range, hpart.covered]
    exact .inr ⟨list, hmem⟩
  have hle := (List.subperm_of_subset (hpart.nodup_list list) hsubset).length_le
  rw [List.length_range] at hle
  omega

/-- A linked node leaves room in the free ring. -/
theorem room (hmem : index ∈ lists list) : free.curSize < free.maxSize := by
  have hfresh : index ∉ free.contents := fun hfree ↦ hpart.free_unlinked index hfree list hmem
  have hsubset : index :: free.contents ⊆ List.range free.maxSize := by
    intro other hother
    rw [List.mem_range, hpart.covered]
    rcases List.mem_cons.1 hother with rfl | hfree
    · exact .inr ⟨list, hmem⟩
    · exact .inl hfree
  have hnodup : (index :: free.contents).Nodup := List.nodup_cons.2 ⟨hfresh, hpart.free_nodup⟩
  have hle := (List.subperm_of_subset hnodup hsubset).length_le
  rwa [List.length_cons, RingBuffer.length_contents, List.length_range] at hle

theorem item_notMem (hfree : index ∈ free.contents) (list : κ) :
    (item index : PoolNode κ) ∉ head list :: (lists list).map item := by
  intro hmem
  rcases List.mem_cons.1 hmem with heq | hmem
  · cases heq
  · obtain ⟨other, hother, heq⟩ := List.mem_map.1 hmem
    cases heq
    exact hpart.free_unlinked index hfree list hother

/-- Every node of the pool is in exactly one place. -/
theorem count_eq_one [Fintype κ] (hindex : index < free.maxSize) :
    free.contents.count index + ∑ list, (lists list).count index = 1 := by
  rcases (hpart.covered index).1 hindex with hfree | ⟨list, hmem⟩
  · have hlists : ∀ list ∈ Finset.univ, (lists list).count index = 0 := by
      intro list _
      exact List.count_eq_zero.2 (hpart.free_unlinked index hfree list)
    rw [Finset.sum_eq_zero hlists, List.count_eq_one_of_mem hpart.free_nodup hfree, add_zero]
  · have hfree : free.contents.count index = 0 :=
      List.count_eq_zero.2 fun hfree ↦ hpart.free_unlinked index hfree list hmem
    have hothers : ∀ other ∈ Finset.univ, other ≠ list → (lists other).count index = 0 := by
      intro other _ hne
      exact List.count_eq_zero.2 fun hmem' ↦ hne (hpart.eq_of_mem hmem' hmem)
    rw [hfree, Finset.sum_eq_single list hothers (fun h ↦ absurd (Finset.mem_univ list) h),
      List.count_eq_one_of_mem (hpart.nodup_list list) hmem, zero_add]

omit hpart

/-! ## Moving nodes -/

variable [DecidableEq κ]

variable (hpart : Partition free links lists)

include hpart

/-- A list of the family is replaced, with what changes hands in the free ring. -/
theorem of_rings {links' : Links (PoolNode κ)} {xs : List ℕ}
    (hrings : links'.Rings head (update (fun list ↦ (lists list).map item) list (xs.map item)))
    (hnodup : free'.contents.Nodup) (hmax : free'.maxSize = free.maxSize)
    (hsplit : ∀ index, (index ∈ free'.contents ∨ index ∈ xs) ↔ (index ∈ free.contents ∨ index ∈ lists list))
    (hapart : ∀ index ∈ free'.contents, index ∉ xs) : Partition free' links' (update lists list xs) where
  rings := by
    have hfun : (fun other ↦ (update lists list xs other).map (item : ℕ → PoolNode κ)) =
        update (fun other ↦ (lists other).map item) list (xs.map item) := by
      funext other
      by_cases hother : other = list
      · subst hother
        simp
      · simp [update_of_ne hother]
    rw [hfun]
    exact hrings
  free_nodup := hnodup
  free_unlinked := by
    intro index hindex other
    by_cases hother : other = list
    · subst hother
      rw [update_self]
      exact hapart index hindex
    · rw [update_of_ne hother]
      rcases (hsplit index).1 (.inl hindex) with hfree | hlist
      · exact hpart.free_unlinked index hfree other
      · exact fun hmem ↦ hother (hpart.eq_of_mem hmem hlist)
  covered := by
    intro index
    rw [hmax, hpart.covered]
    have hmoved := hsplit index
    constructor
    · rintro (hfree | ⟨other, hmem⟩)
      · rcases hmoved.2 (.inl hfree) with h | h
        · exact .inl h
        · exact .inr ⟨list, by rwa [update_self]⟩
      · by_cases hother : other = list
        · subst hother
          rcases hmoved.2 (.inr hmem) with h | h
          · exact .inl h
          · exact .inr ⟨other, by rwa [update_self]⟩
        · exact .inr ⟨other, by rwa [update_of_ne hother]⟩
    · rintro (hfree | ⟨other, hmem⟩)
      · rcases hmoved.1 (.inl hfree) with h | h
        · exact .inl h
        · exact .inr ⟨list, h⟩
      · by_cases hother : other = list
        · subst hother
          rw [update_self] at hmem
          rcases hmoved.1 (.inr hmem) with h | h
          · exact .inl h
          · exact .inr ⟨other, h⟩
        · rw [update_of_ne hother] at hmem
          exact .inr ⟨other, hmem⟩

theorem of_pop {links' : Links (PoolNode κ)} {xs : List ℕ} (hpop : free.pop = some (index, free'))
    (hxs : ∀ other, other ∈ xs ↔ other = index ∨ other ∈ lists list)
    (hrings : (∀ list, item index ∉ head list :: (lists list).map item) →
      links'.Rings head (update (fun list ↦ (lists list).map item) list (xs.map item))) :
    Partition free' links' (update lists list xs) := by
  obtain ⟨hcontents, hmax⟩ := RingBuffer.contents_pop hpop
  have hnodup := hpart.free_nodup
  have hfree : index ∈ free.contents := by simp [hcontents]
  rw [hcontents, List.nodup_cons] at hnodup
  apply hpart.of_rings (hrings (hpart.item_notMem hfree)) hnodup.2 hmax
  · intro other
    rw [hcontents, List.mem_cons, hxs]
    tauto
  · intro other hother hmem
    rcases (hxs other).1 hmem with rfl | hold
    · exact hnodup.1 hother
    · exact hpart.free_unlinked other (by simp [hcontents, hother]) list hold

theorem addTail (list : κ) (hpop : free.pop = some (index, free')) :
    Partition free' (links.addTail (head list) (item index)) (update lists list (lists list ++ [index])) :=
  hpart.of_pop hpop (by simp [or_comm]) fun hnew ↦ by simpa using hpart.rings.addTail list hnew

theorem addHead (list : κ) (hpop : free.pop = some (index, free')) :
    Partition free' (links.addHead (head list) (item index)) (update lists list (index :: lists list)) :=
  hpart.of_pop hpop (by simp) fun hnew ↦ by simpa using hpart.rings.addHead list hnew

theorem release {before after : List ℕ} (hlist : lists list = before ++ index :: after) :
    (free.push index).2.contents = free.contents ++ [index] ∧
      Partition (free.push index).2 (links.del (item index)) (update lists list (before ++ after)) := by
  have hmem : index ∈ lists list := by simp [hlist]
  obtain ⟨-, hcontents⟩ := RingBuffer.contents_push index (hpart.room hmem)
  have hfresh : index ∉ free.contents := fun hfree ↦ hpart.free_unlinked index hfree list hmem
  have hnodup := hpart.nodup_list list
  rw [hlist] at hnodup
  have hgone : index ∉ before ++ after := (List.nodup_middle.1 hnodup).notMem
  refine ⟨hcontents, hpart.of_rings ?_ ?_ (RingBuffer.maxSize_push free index) ?_ ?_⟩
  · have hmap : (fun list ↦ (lists list).map (item : ℕ → PoolNode κ)) list =
        before.map item ++ item index :: after.map item := by
      simp [hlist]
    simpa using hpart.rings.del_mem hmap
  · rw [hcontents, List.nodup_append]
    refine ⟨hpart.free_nodup, List.nodup_singleton _, ?_⟩
    intro other hother other' hother' heq
    exact hfresh (List.mem_singleton.1 hother' ▸ heq ▸ hother)
  · intro other
    rw [hcontents, hlist]
    simp only [List.mem_append, List.mem_cons, List.not_mem_nil, or_false]
    tauto
  · intro other hother hmem'
    rw [hcontents] at hother
    rcases List.mem_append.1 hother with hfree | hnew
    · refine hpart.free_unlinked other hfree list ?_
      rw [hlist]
      rcases List.mem_append.1 hmem' with h | h
      · exact List.mem_append_left _ h
      · exact List.mem_append_right _ (List.mem_cons_of_mem _ h)
    · exact hgone (List.mem_singleton.1 hnew ▸ hmem')

/-- Popping the head of a list unlinks its first node. -/
theorem popHead {rest : List ℕ} (hlist : lists list = index :: rest) :
    links.popHead (head list) = (some (item index), links.del (item index)) := by
  have hmap : (fun list ↦ (lists list).map (item : ℕ → PoolNode κ)) list = item index :: rest.map item := by
    simp [hlist]
  exact (hpart.rings.popHead hmap).1

/-- Rotating a list returns its first node and moves it to the end. -/
theorem rotate (list : κ) : (links.rotateLeft (head list)).1 = (lists list).head?.map item ∧
    Partition free (links.rotateLeft (head list)).2 (update lists list ((lists list).rotate 1)) := by
  cases hlist : lists list with
  | nil =>
    have hring := hpart.rings.ring list
    rw [hlist] at hring
    rw [Links.rotateLeft_nil hring, List.rotate_nil, ← hlist, update_eq_self, hlist]
    exact ⟨rfl, hpart⟩
  | cons index rest =>
    have hmap : (fun list ↦ (lists list).map (item : ℕ → PoolNode κ)) list = item index :: rest.map item := by
      simp [hlist]
    obtain ⟨hfirst, hrings⟩ := hpart.rings.rotateLeft hmap
    refine ⟨hfirst, hpart.of_rings (by simpa using hrings) hpart.free_nodup rfl ?_ ?_⟩
    · intro other
      rw [← hlist, List.mem_rotate]
    · intro other hother
      rw [← hlist, List.mem_rotate]
      exact hpart.free_unlinked other hother list

end Partition

end NfvActor.Foundation
