import Mathlib.Tactic

/-!
# Bounded ring buffers as queues

A ring buffer keeps a head position, a tail position and a size over a circular
array. The positions are tied together by the structure itself, so the queue it
holds is the list read from the head position onwards, and pushing and popping
act on that list at its two ends. Cells outside the occupied range keep
whatever they held before.
-/

namespace NfvActor.Foundation

open Function

universe u

/-- A circular array with its occupied range. -/
structure RingBuffer (α : Type u) where
  headPos : ℕ
  tailPos : ℕ
  curSize : ℕ
  maxSize : ℕ
  ringBuf : ℕ → α
  head_lt : headPos < maxSize
  size_le : curSize ≤ maxSize
  tail_eq : tailPos = (headPos + curSize) % maxSize

namespace RingBuffer

variable {α : Type u}

/-- An empty ring over uninitialised cells. -/
def empty (maxSize : ℕ) (hpos : 0 < maxSize) (cells : ℕ → α) : RingBuffer α where
  headPos := 0
  tailPos := 0
  curSize := 0
  maxSize := maxSize
  ringBuf := cells
  head_lt := hpos
  size_le := Nat.zero_le _
  tail_eq := by simp

/-- The full ring of the first `maxSize` cells in order. -/
def filled (maxSize : ℕ) (hpos : 0 < maxSize) (cells : ℕ → α) : RingBuffer α where
  headPos := 0
  tailPos := 0
  curSize := maxSize
  maxSize := maxSize
  ringBuf := cells
  head_lt := hpos
  size_le := le_rfl
  tail_eq := by simp

def pop (ring : RingBuffer α) : Option (α × RingBuffer α) :=
  if hsize : ring.curSize = 0 then none
  else some (ring.ringBuf ring.headPos,
    { headPos := (ring.headPos + 1) % ring.maxSize
      tailPos := ring.tailPos
      curSize := ring.curSize - 1
      maxSize := ring.maxSize
      ringBuf := ring.ringBuf
      head_lt := Nat.mod_lt _ (Nat.zero_lt_of_lt ring.head_lt)
      size_le := (Nat.sub_le _ _).trans ring.size_le
      tail_eq := by
        rw [ring.tail_eq, Nat.mod_add_mod]
        congr 1
        omega })

/-- A full ring refuses the element and stays as it is. -/
def push (ring : RingBuffer α) (value : α) : Bool × RingBuffer α :=
  if hsize : ring.curSize = ring.maxSize then (false, ring)
  else (true,
    { headPos := ring.headPos
      tailPos := (ring.tailPos + 1) % ring.maxSize
      curSize := ring.curSize + 1
      maxSize := ring.maxSize
      ringBuf := update ring.ringBuf ring.tailPos value
      head_lt := ring.head_lt
      size_le := Nat.lt_of_le_of_ne ring.size_le hsize
      tail_eq := by
        rw [ring.tail_eq, Nat.mod_add_mod]
        congr 1 })

/-- The queue held by the ring, oldest element first. -/
def contents (ring : RingBuffer α) : List α :=
  (List.range ring.curSize).map fun offset ↦ ring.ringBuf ((ring.headPos + offset) % ring.maxSize)

@[simp]
theorem length_contents (ring : RingBuffer α) : ring.contents.length = ring.curSize := by
  simp [contents]

@[simp]
theorem contents_empty (maxSize : ℕ) (hpos : 0 < maxSize) (cells : ℕ → α) :
    (empty maxSize hpos cells).contents = [] := by
  simp [contents, empty]

@[simp]
theorem contents_filled (maxSize : ℕ) (hpos : 0 < maxSize) (cells : ℕ → α) :
    (filled maxSize hpos cells).contents = (List.range maxSize).map cells := by
  unfold contents filled
  apply List.map_congr_left
  intro offset hoffset
  simp [Nat.mod_eq_of_lt (List.mem_range.1 hoffset)]

theorem pop_eq_none_iff (ring : RingBuffer α) : ring.pop = none ↔ ring.contents = [] := by
  rw [← List.length_eq_zero_iff, length_contents]
  unfold pop
  split <;> simp_all

variable {ring : RingBuffer α}

/-- Popping takes the oldest element and leaves the rest in order. -/
theorem contents_pop {ring' : RingBuffer α} {value : α} (hpop : ring.pop = some (value, ring')) :
    ring.contents = value :: ring'.contents ∧ ring'.maxSize = ring.maxSize := by
  unfold pop at hpop
  split at hpop
  · cases hpop
  · next hsize =>
    simp only [Option.some.injEq, Prod.mk.injEq] at hpop
    obtain ⟨rfl, rfl⟩ := hpop
    obtain ⟨size, hsize'⟩ := Nat.exists_eq_succ_of_ne_zero hsize
    refine ⟨?_, rfl⟩
    simp only [contents, hsize', List.range_succ_eq_map, List.map_cons, List.map_map,
      Nat.succ_sub_one, Nat.add_zero, Nat.mod_eq_of_lt ring.head_lt]
    congr 1
    apply List.map_congr_left
    intro offset _
    simp only [Function.comp_apply, Nat.mod_add_mod]
    congr 2
    omega

@[simp]
theorem maxSize_push (ring : RingBuffer α) (value : α) : (ring.push value).2.maxSize = ring.maxSize := by
  unfold push
  split <;> rfl

theorem contents_push (value : α) (hroom : ring.curSize < ring.maxSize) :
    (ring.push value).1 = true ∧ (ring.push value).2.contents = ring.contents ++ [value] := by
  unfold push
  rw [dif_neg hroom.ne]
  refine ⟨rfl, ?_⟩
  simp only [contents, List.range_succ, List.map_append, List.map_cons, List.map_nil, ring.tail_eq, update_self]
  congr 1
  apply List.map_congr_left
  intro offset hoffset
  have hlt : offset < ring.curSize := List.mem_range.1 hoffset
  rw [update_of_ne]
  intro heq
  have hmod : offset % ring.maxSize = ring.curSize % ring.maxSize :=
    Nat.ModEq.add_left_cancel' ring.headPos heq
  rw [Nat.mod_eq_of_lt (hlt.trans hroom), Nat.mod_eq_of_lt hroom] at hmod
  exact hlt.ne hmod

theorem push_full (value : α) (hfull : ring.curSize = ring.maxSize) : ring.push value = (false, ring) := by
  simp [push, hfull]

/-- Filling an empty ring cell by cell gives the filled ring's queue. -/
theorem contents_push_range (maxSize : ℕ) (hpos : 0 < maxSize) (cells values : ℕ → α) :
    ((List.range maxSize).foldl (fun ring index ↦ (ring.push (values index)).2)
      (empty maxSize hpos cells)).contents = (filled maxSize hpos values).contents := by
  have hfold (count : ℕ) (hcount : count ≤ maxSize) :
      ((List.range count).foldl (fun ring index ↦ (ring.push (values index)).2)
        (empty maxSize hpos cells)).contents = (List.range count).map values ∧
      ((List.range count).foldl (fun ring index ↦ (ring.push (values index)).2)
        (empty maxSize hpos cells)).maxSize = maxSize := by
    induction count with
    | zero => exact ⟨by simp, rfl⟩
    | succ count ih =>
      obtain ⟨hcontents, hmax⟩ := ih (Nat.le_of_succ_le hcount)
      have hsize := congrArg List.length hcontents
      rw [length_contents, List.length_map, List.length_range] at hsize
      rw [List.range_succ, List.foldl_append, List.foldl_cons, List.foldl_nil, maxSize_push]
      refine ⟨?_, hmax⟩
      rw [(contents_push (values count) (by omega)).2, hcontents]
      simp
  rw [(hfold maxSize le_rfl).1, contents_filled]

end RingBuffer

end NfvActor.Foundation
