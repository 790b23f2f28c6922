import Mathlib.Tactic
import NfvActor.Foundation.Transition
import NfvActor.Foundation.IndexPool
import NfvActor.Actor.Runtime

/-!
# The ring buffer and the two allocators behind it

`simple_ring_buffer` is kept by its bare fields, so that a ring of capacity zero exists; a ring of positive
capacity is the view of a `RingBuffer`. `generic_ring_allocator` and `flow_actor_allocator` keep the free
elements of their array in such a ring. Clients allocate, and give back elements that are outstanding.
-/

namespace NfvActor.Utils

open Foundation
open Function

universe u

/-- The fields of `simple_ring_buffer`. -/
structure SimpleRingBuffer (α : Type u) where
  headPos : ℕ
  tailPos : ℕ
  curSize : ℕ
  maxSize : ℕ
  ringBuf : ℕ → α

namespace SimpleRingBuffer

variable {α : Type u}

/-- The cells are whatever the allocated memory holds. -/
def init (maxSize : ℕ) (cells : ℕ → α) : SimpleRingBuffer α where
  headPos := 0
  tailPos := 0
  curSize := 0
  maxSize := maxSize
  ringBuf := cells

/-- The null pointer of an empty ring is `none`. -/
def pop (ring : SimpleRingBuffer α) : Option α × SimpleRingBuffer α :=
  if ring.curSize = 0 then (none, ring)
  else (some (ring.ringBuf ring.headPos),
    { ring with
      headPos := (ring.headPos + 1) % ring.maxSize
      curSize := ring.curSize - 1 })

def push (ring : SimpleRingBuffer α) (value : α) : Bool × SimpleRingBuffer α :=
  if ring.curSize = ring.maxSize then (false, ring)
  else (true,
    { ring with
      ringBuf := update ring.ringBuf ring.tailPos value
      tailPos := (ring.tailPos + 1) % ring.maxSize
      curSize := ring.curSize + 1 })

/-- The fields of a ring whose positions are tied together. -/
def ofRingBuffer (ring : RingBuffer α) : SimpleRingBuffer α where
  headPos := ring.headPos
  tailPos := ring.tailPos
  curSize := ring.curSize
  maxSize := ring.maxSize
  ringBuf := ring.ringBuf

theorem init_eq_ofRingBuffer (maxSize : ℕ) (hpos : 0 < maxSize) (cells : ℕ → α) :
    init maxSize cells = ofRingBuffer (RingBuffer.empty maxSize hpos cells) := rfl

theorem pop_ofRingBuffer_none {ring : RingBuffer α} (hpop : ring.pop = none) :
    (ofRingBuffer ring).pop = (none, ofRingBuffer ring) := by
  unfold RingBuffer.pop at hpop
  split at hpop
  · next hsize => exact if_pos hsize
  · cases hpop

theorem pop_ofRingBuffer_some {ring ring' : RingBuffer α} {value : α} (hpop : ring.pop = some (value, ring')) :
    (ofRingBuffer ring).pop = (some value, ofRingBuffer ring') := by
  unfold RingBuffer.pop at hpop
  split at hpop
  · cases hpop
  · next hsize =>
    simp only [Option.some.injEq, Prod.mk.injEq] at hpop
    rw [← hpop.1, ← hpop.2]
    exact if_neg hsize

theorem push_ofRingBuffer (ring : RingBuffer α) (value : α) :
    (ofRingBuffer ring).push value = ((ring.push value).1, ofRingBuffer (ring.push value).2) := by
  unfold RingBuffer.push
  split
  · next hsize => exact if_pos hsize
  · next hsize => exact if_neg hsize

end SimpleRingBuffer

/-- A call on a ring. -/
inductive RingCall (α : Type u) where
  | pop
  | push (value : α)

/-- What a call returns. -/
inductive RingReply (α : Type u) where
  | popped (value : Option α)
  | pushed (accepted : Bool)

namespace BoundedQueue

variable {α : Type u}

/-- A call on a queue of at most `capacity` elements. -/
def call (capacity : ℕ) : List α → RingCall α → RingReply α × List α
  | [], .pop => (.popped none, [])
  | value :: rest, .pop => (.popped (some value), rest)
  | queue, .push value =>
    if queue.length < capacity then (.pushed true, queue ++ [value]) else (.pushed false, queue)

/-- The replies to a sequence of calls. -/
def replies (capacity : ℕ) : List α → List (RingCall α) → List (RingReply α)
  | _, [] => []
  | queue, c :: rest => (call capacity queue c).1 :: replies capacity (call capacity queue c).2 rest

end BoundedQueue

namespace SimpleRingBuffer

variable {α : Type u}

def call (ring : SimpleRingBuffer α) : RingCall α → RingReply α × SimpleRingBuffer α
  | .pop => (.popped ring.pop.1, ring.pop.2)
  | .push value => (.pushed (ring.push value).1, (ring.push value).2)

/-- The replies to a sequence of calls. -/
def replies : SimpleRingBuffer α → List (RingCall α) → List (RingReply α)
  | _, [] => []
  | ring, c :: rest => (ring.call c).1 :: (ring.call c).2.replies rest

/-- The ring holds a queue of at most `capacity` elements. A ring of capacity zero is never more than
empty. -/
inductive Holds : SimpleRingBuffer α → ℕ → List α → Prop
  | zero {ring : SimpleRingBuffer α} (hsize : ring.curSize = 0) (hmax : ring.maxSize = 0) : Holds ring 0 []
  | positive (ring : RingBuffer α) : Holds (ofRingBuffer ring) ring.maxSize ring.contents

theorem holds_init (capacity : ℕ) (cells : ℕ → α) : (init capacity cells).Holds capacity [] := by
  rcases Nat.eq_zero_or_pos capacity with hzero | hpos
  · rw [hzero]
    exact .zero rfl rfl
  · have hholds := Holds.positive (RingBuffer.empty capacity hpos cells)
    rw [RingBuffer.contents_empty] at hholds
    exact hholds

variable {ring : SimpleRingBuffer α}

/-- A ring answers as the queue it holds, and then holds the queue that is left. -/
theorem Holds.call {capacity : ℕ} {queue : List α} (hholds : ring.Holds capacity queue) (c : RingCall α) :
    (ring.call c).1 = (BoundedQueue.call capacity queue c).1 ∧
      (ring.call c).2.Holds capacity (BoundedQueue.call capacity queue c).2 := by
  cases hholds with
  | @zero ring hsize hmax =>
    have hpop : ring.pop = (none, ring) := if_pos hsize
    cases c with
    | pop =>
      simp only [SimpleRingBuffer.call, hpop]
      exact ⟨rfl, .zero hsize hmax⟩
    | push value =>
      have hpush : ring.push value = (false, ring) := if_pos (hsize.trans hmax.symm)
      simp only [SimpleRingBuffer.call, hpush]
      exact ⟨rfl, .zero hsize hmax⟩
  | positive ring =>
    cases c with
    | pop =>
      cases hpop : ring.pop with
      | none =>
        have hempty := (RingBuffer.pop_eq_none_iff ring).1 hpop
        simp only [SimpleRingBuffer.call, pop_ofRingBuffer_none hpop, hempty, BoundedQueue.call, true_and]
        have hholds := Holds.positive ring
        rwa [hempty] at hholds
      | some popped =>
        have hpopped : ring.pop = some (popped.1, popped.2) := hpop
        have hcontents := RingBuffer.contents_pop hpopped
        simp only [SimpleRingBuffer.call, pop_ofRingBuffer_some hpopped, hcontents.1, BoundedQueue.call,
          true_and]
        rw [← hcontents.2]
        exact .positive popped.2
    | push value =>
      simp only [SimpleRingBuffer.call, push_ofRingBuffer, BoundedQueue.call, RingBuffer.length_contents]
      by_cases hroom : ring.curSize < ring.maxSize
      · have hpush := RingBuffer.contents_push value hroom
        have hholds := Holds.positive (ring.push value).2
        rw [hpush.2, RingBuffer.maxSize_push] at hholds
        rw [if_pos hroom, hpush.1]
        exact ⟨rfl, hholds⟩
      · have hfull : ring.curSize = ring.maxSize := le_antisymm ring.size_le (not_lt.1 hroom)
        rw [if_neg hroom, RingBuffer.push_full value hfull]
        exact ⟨rfl, .positive ring⟩

theorem Holds.replies {capacity : ℕ} {queue : List α} (hholds : ring.Holds capacity queue)
    (calls : List (RingCall α)) : ring.replies calls = BoundedQueue.replies capacity queue calls := by
  induction calls generalizing ring queue with
  | nil => rfl
  | cons c rest ih =>
    calc ring.replies (c :: rest) = (ring.call c).1 :: (ring.call c).2.replies rest := rfl
      _ = (BoundedQueue.call capacity queue c).1 ::
            BoundedQueue.replies capacity (BoundedQueue.call capacity queue c).2 rest := by
          rw [(hholds.call c).1, ih (hholds.call c).2]

end SimpleRingBuffer

/-- The elements of `obj_array_` are named by their indices. -/
structure GenericRingAllocator where
  maxSize : ℕ
  ringBuf : SimpleRingBuffer ℕ

namespace GenericRingAllocator

def init (size : ℕ) (cells : ℕ → ℕ) : GenericRingAllocator where
  maxSize := size
  ringBuf := (List.range size).foldl (fun ring index ↦ (ring.push index).2) (.init size cells)

def allocate (allocator : GenericRingAllocator) : Option ℕ × GenericRingAllocator :=
  (allocator.ringBuf.pop.1, { allocator with ringBuf := allocator.ringBuf.pop.2 })

def deallocate (allocator : GenericRingAllocator) (obj : ℕ) : Bool × GenericRingAllocator :=
  ((allocator.ringBuf.push obj).1, { allocator with ringBuf := (allocator.ringBuf.push obj).2 })

end GenericRingAllocator

/-- The actors of `flow_actor_array_` are named by their indices; the allocator only writes their identifiers.
-/
structure FlowActorAllocator where
  maxActors : ℕ
  nextFlowActorId : UInt32
  ringBuf : SimpleRingBuffer ℕ
  actorIds : ℕ → UInt32

namespace FlowActorAllocator

def init (maxActors : ℕ) (cells : ℕ → ℕ) : FlowActorAllocator where
  maxActors := maxActors
  nextFlowActorId := Actor.flowActorIdStart
  ringBuf := (List.range maxActors).foldl (fun ring index ↦ (ring.push index).2) (.init maxActors cells)
  actorIds := fun _ ↦ Actor.invalidFlowActorId

def allocate (allocator : FlowActorAllocator) : Option ℕ × FlowActorAllocator :=
  match allocator.ringBuf.pop with
  | (none, ring) => (none, { allocator with ringBuf := ring })
  | (some actor, ring) =>
    (some actor,
      { allocator with
        ringBuf := ring
        actorIds := update allocator.actorIds actor allocator.nextFlowActorId
        nextFlowActorId := allocator.nextFlowActorId + 1 })

def deallocate (allocator : FlowActorAllocator) (actor : ℕ) : Bool × FlowActorAllocator :=
  ((allocator.ringBuf.push actor).1,
    { allocator with
      ringBuf := (allocator.ringBuf.push actor).2
      actorIds := update allocator.actorIds actor Actor.invalidFlowActorId })

end FlowActorAllocator

/-! ## Rings that stock the free elements -/

namespace SimpleRingBuffer

/-- The ring holds every element that is not outstanding, once. -/
inductive Stocks : SimpleRingBuffer ℕ → ℕ → Finset ℕ → Prop
  | zero {ring : SimpleRingBuffer ℕ} (hsize : ring.curSize = 0) (hmax : ring.maxSize = 0) :
      Stocks ring 0 ∅
  | positive {ring : RingBuffer ℕ} (hpool : ring.IsPool) :
      Stocks (ofRingBuffer ring) ring.maxSize ring.outstanding

/-- Pushing every element once stocks the ring. -/
theorem stocks_init (capacity : ℕ) (cells : ℕ → ℕ) :
    ((List.range capacity).foldl (fun ring index ↦ (ring.push index).2) (init capacity cells)).Stocks
      capacity ∅ := by
  rcases Nat.eq_zero_or_pos capacity with hzero | hpos
  · rw [hzero]
    exact .zero rfl rfl
  · have hfold (indices : List ℕ) (ring : RingBuffer ℕ) :
        indices.foldl (fun ring index ↦ (ring.push index).2) (ofRingBuffer ring) =
            ofRingBuffer (indices.foldl (fun ring index ↦ (ring.push index).2) ring) ∧
          (indices.foldl (fun ring index ↦ (ring.push index).2) ring).maxSize = ring.maxSize := by
      induction indices generalizing ring with
      | nil => exact ⟨rfl, rfl⟩
      | cons _ _ ih =>
        rw [List.foldl_cons, List.foldl_cons, push_ofRingBuffer, (ih _).1, (ih _).2, RingBuffer.maxSize_push]
        exact ⟨rfl, rfl⟩
    have hcontents := RingBuffer.contents_push_range capacity hpos cells id
    have hmax := (hfold (List.range capacity) (RingBuffer.empty capacity hpos cells)).2
    rw [init_eq_ofRingBuffer capacity hpos, (hfold _ _).1]
    set ring := (List.range capacity).foldl (fun ring index ↦ (ring.push index).2)
      (RingBuffer.empty capacity hpos cells)
    have hsame : ring.contents = (RingBuffer.filled capacity hpos id).contents := hcontents
    have hpool : ring.IsPool := by
      have hfilled := RingBuffer.isPool_filled capacity hpos
      constructor
      · rw [hsame]
        exact hfilled.nodup
      · rw [hsame, hmax]
        exact hfilled.bound
    have hnone : ring.outstanding = ∅ := by
      rw [← RingBuffer.outstanding_filled capacity hpos]
      unfold RingBuffer.outstanding
      rw [hsame, hmax]
      rfl
    have hstocks := Stocks.positive hpool
    rw [hnone, hmax] at hstocks
    exact hstocks

namespace Stocks

variable {ring : SimpleRingBuffer ℕ} {capacity : ℕ} {outstanding : Finset ℕ}

variable (hstocks : ring.Stocks capacity outstanding)

include hstocks

/-- Popping fails only when every element is outstanding. -/
theorem pop_none (hpop : ring.pop.1 = none) :
    outstanding = Finset.range capacity ∧ ring.pop.2.Stocks capacity outstanding := by
  cases hstocks with
  | @zero ring hsize hmax =>
    have hsame : ring.pop = (none, ring) := if_pos hsize
    rw [hsame]
    exact ⟨rfl, .zero hsize hmax⟩
  | @positive ring hpool =>
    cases hring : ring.pop with
    | none =>
      have hcard := hpool.card_outstanding
      have hsize : ring.curSize = 0 := by
        rw [← RingBuffer.length_contents, (RingBuffer.pop_eq_none_iff ring).1 hring, List.length_nil]
      rw [pop_ofRingBuffer_none hring]
      constructor
      · have hsubset : ring.outstanding ⊆ Finset.range ring.maxSize := Finset.filter_subset _ _
        apply Finset.eq_of_subset_of_card_le hsubset
        rw [Finset.card_range]
        omega
      · exact .positive hpool
    | some popped =>
      rw [pop_ofRingBuffer_some (show ring.pop = some (popped.1, popped.2) from hring)] at hpop
      cases hpop

theorem pop_some {obj : ℕ} (hpop : ring.pop.1 = some obj) :
    obj ∈ Finset.range capacity ∧ obj ∉ outstanding ∧ ring.pop.2.Stocks capacity (insert obj outstanding) := by
  cases hstocks with
  | @zero ring hsize =>
    rw [show ring.pop = (none, ring) from if_pos hsize] at hpop
    cases hpop
  | @positive ring hpool =>
    cases hring : ring.pop with
    | none =>
      rw [pop_ofRingBuffer_none hring] at hpop
      cases hpop
    | some popped =>
      have hpopped : ring.pop = some (popped.1, popped.2) := hring
      rw [pop_ofRingBuffer_some hpopped] at hpop ⊢
      have hobj : popped.1 = obj := Option.some.inj hpop
      rw [hobj] at hpopped
      have hnext := hpool.pop hpopped
      have hcontents := RingBuffer.contents_pop hpopped
      have hmem : obj ∈ ring.contents := by
        rw [hcontents.1]
        exact List.mem_cons_self
      have hstocks := Stocks.positive hnext.1
      rw [hnext.2.2, hcontents.2] at hstocks
      exact ⟨Finset.mem_range.2 (hpool.bound obj hmem), hnext.2.1, hstocks⟩

/-- There is always room for an outstanding element. -/
theorem push {obj : ℕ} (hobj : obj ∈ outstanding) :
    (ring.push obj).1 = true ∧ (ring.push obj).2.Stocks capacity (outstanding.erase obj) := by
  cases hstocks with
  | zero => exact absurd hobj (Finset.notMem_empty obj)
  | @positive _ hpool =>
    have hnext := hpool.push hobj
    have hstocks := Stocks.positive hnext.1
    rw [hnext.2.1, RingBuffer.maxSize_push] at hstocks
    rw [push_ofRingBuffer]
    exact ⟨(RingBuffer.contents_push obj (hpool.room hobj)).1, hstocks⟩

end Stocks

end SimpleRingBuffer

/-- The operations of an allocator over an array of elements. -/
structure RingAllocator (A : Type) where
  init : ℕ → (ℕ → ℕ) → A
  allocate : A → Option ℕ × A
  deallocate : A → ℕ → Bool × A

def genericRingAllocator : RingAllocator GenericRingAllocator where
  init := GenericRingAllocator.init
  allocate := GenericRingAllocator.allocate
  deallocate := GenericRingAllocator.deallocate

def flowActorAllocator : RingAllocator FlowActorAllocator where
  init := FlowActorAllocator.init
  allocate := FlowActorAllocator.allocate
  deallocate := FlowActorAllocator.deallocate

/-- An allocator with the elements it returned that did not come back yet. -/
structure Clients (A : Type) where
  allocator : A
  outstanding : Finset ℕ

/-- A call of a client. -/
inductive AllocatorCall where
  | allocate
  | deallocate (obj : ℕ)

namespace RingAllocator

variable {A : Type}

/-- A returned element becomes outstanding; only an outstanding element is given back. -/
def step (ops : RingAllocator A) (s : Clients A) : AllocatorCall → Option (Clients A)
  | .allocate =>
    match ops.allocate s.allocator with
    | (none, allocator) => some { s with allocator }
    | (some obj, allocator) => some { allocator, outstanding := insert obj s.outstanding }
  | .deallocate obj =>
    if obj ∈ s.outstanding then
      some { allocator := (ops.deallocate s.allocator obj).2, outstanding := s.outstanding.erase obj }
    else none

/-- The runs of clients of an allocator with `capacity` elements. -/
def clients (ops : RingAllocator A) (capacity : ℕ) : TransitionSystem (Clients A) AllocatorCall where
  init s := ∃ cells, s = { allocator := ops.init capacity cells, outstanding := ∅ }
  step := ops.step

/-- Nothing outstanding is returned again, null is returned exactly when all elements are outstanding, and every
outstanding element is taken back. -/
structure Exclusive (ops : RingAllocator A) (capacity : ℕ) (s : Clients A) : Prop where
  fresh : ∀ obj, (ops.allocate s.allocator).1 = some obj →
    obj ∈ Finset.range capacity ∧ obj ∉ s.outstanding
  exhausted : (ops.allocate s.allocator).1 = none ↔ s.outstanding = Finset.range capacity
  accepted : ∀ obj ∈ s.outstanding, (ops.deallocate s.allocator obj).1 = true

/-- The allocator keeps its free elements in a ring, which it fills, pops and pushes. -/
structure OverRing (ops : RingAllocator A) (ringBuf : A → SimpleRingBuffer ℕ) : Prop where
  init : ∀ capacity cells, ringBuf (ops.init capacity cells) =
    (List.range capacity).foldl (fun ring index ↦ (ring.push index).2) (.init capacity cells)
  allocate : ∀ a, (ops.allocate a).1 = (ringBuf a).pop.1 ∧
    ringBuf (ops.allocate a).2 = (ringBuf a).pop.2
  deallocate : ∀ a obj, (ops.deallocate a obj).1 = ((ringBuf a).push obj).1 ∧
    ringBuf (ops.deallocate a obj).2 = ((ringBuf a).push obj).2

namespace OverRing

variable {ops : RingAllocator A} {ringBuf : A → SimpleRingBuffer ℕ} {capacity : ℕ} {s : Clients A}

variable (hover : ops.OverRing ringBuf)

include hover

theorem stocks_step {s' : Clients A} {c : AllocatorCall}
    (hstocks : (ringBuf s.allocator).Stocks capacity s.outstanding) (hstep : ops.step s c = some s') :
    (ringBuf s'.allocator).Stocks capacity s'.outstanding := by
  cases c with
  | allocate =>
    have hallocate := hover.allocate s.allocator
    rw [step] at hstep
    split at hstep
    · next allocator hresult =>
      rw [hresult] at hallocate
      have hnone := hstocks.pop_none hallocate.1.symm
      rw [← hallocate.2] at hnone
      cases hstep
      exact hnone.2
    · next obj allocator hresult =>
      rw [hresult] at hallocate
      have hsome := hstocks.pop_some hallocate.1.symm
      rw [← hallocate.2] at hsome
      cases hstep
      exact hsome.2.2
  | deallocate obj =>
    rw [step] at hstep
    split at hstep
    · next hobj =>
      have hpush := hstocks.push hobj
      rw [← (hover.deallocate s.allocator obj).2] at hpush
      cases hstep
      exact hpush.2
    · cases hstep

/-- In every run the ring is stocked with what is not outstanding. -/
theorem stocks_reachable (hreach : (ops.clients capacity).Reachable TransitionSystem.anyStep s) :
    (ringBuf s.allocator).Stocks capacity s.outstanding := by
  apply hreach.invariant
  · intro s hinit
    obtain ⟨cells, rfl⟩ := hinit
    change (ringBuf (ops.init capacity cells)).Stocks capacity ∅
    rw [hover.init]
    exact SimpleRingBuffer.stocks_init capacity cells
  · intro s c s' hstocks _ hstep
    exact hover.stocks_step hstocks hstep

theorem exclusive (hstocks : (ringBuf s.allocator).Stocks capacity s.outstanding) :
    ops.Exclusive capacity s where
  fresh := by
    intro obj hobj
    rw [(hover.allocate s.allocator).1] at hobj
    have hsome := hstocks.pop_some hobj
    exact ⟨hsome.1, hsome.2.1⟩
  exhausted := by
    rw [(hover.allocate s.allocator).1]
    constructor
    · intro hnone
      exact (hstocks.pop_none hnone).1
    · intro hall
      cases hpop : (ringBuf s.allocator).pop.1 with
      | none => rfl
      | some =>
        have hsome := hstocks.pop_some hpop
        exact absurd (hall ▸ hsome.1) hsome.2.1
  accepted := by
    intro obj hobj
    rw [(hover.deallocate s.allocator obj).1]
    exact (hstocks.push hobj).1

end OverRing

end RingAllocator

theorem GenericRingAllocator.overRing : genericRingAllocator.OverRing GenericRingAllocator.ringBuf where
  init := fun _ _ ↦ rfl
  allocate := fun _ ↦ ⟨rfl, rfl⟩
  deallocate := fun _ _ ↦ ⟨rfl, rfl⟩

theorem FlowActorAllocator.overRing : flowActorAllocator.OverRing FlowActorAllocator.ringBuf where
  init := fun _ _ ↦ rfl
  allocate := by
    intro allocator
    change allocator.allocate.1 = _ ∧ allocator.allocate.2.ringBuf = _
    unfold FlowActorAllocator.allocate
    split
    · next hpop => exact ⟨(congrArg Prod.fst hpop).symm, (congrArg Prod.snd hpop).symm⟩
    · next hpop => exact ⟨(congrArg Prod.fst hpop).symm, (congrArg Prod.snd hpop).symm⟩
  deallocate := fun _ _ ↦ ⟨rfl, rfl⟩

/-- A ring of any capacity answers every sequence of calls as a queue of at most that length, and both
allocators return each element to one client at a time. -/
theorem ring_allocators_exclusive (capacity : ℕ) {α : Type u} (cells : ℕ → α) (calls : List (RingCall α)) :
    (SimpleRingBuffer.init capacity cells).replies calls = BoundedQueue.replies capacity [] calls ∧
    (∀ s, (genericRingAllocator.clients capacity).Reachable TransitionSystem.anyStep s →
      genericRingAllocator.Exclusive capacity s) ∧
    (∀ s, (flowActorAllocator.clients capacity).Reachable TransitionSystem.anyStep s →
      flowActorAllocator.Exclusive capacity s) := by
  constructor
  · exact (SimpleRingBuffer.holds_init capacity cells).replies calls
  · constructor
    · intro s hreach
      exact GenericRingAllocator.overRing.exclusive (GenericRingAllocator.overRing.stocks_reachable hreach)
    · intro s hreach
      exact FlowActorAllocator.overRing.exclusive (FlowActorAllocator.overRing.stocks_reachable hreach)

end NfvActor.Utils
