import Mathlib.Tactic
import NfvActor.Foundation.Transition

/-!
# The growing array

`fixed_array` is kept as the bytes allocated for it: an element is a run of bytes at a multiple of the element
size, and access beyond them has no result. `rte_memcpy` is defined for regions that do not overlap; what it
leaves when they do is an input.
-/

namespace NfvActor.Utils

open Foundation

/-- A value of a type of `size` bytes. -/
structure Element (size : ℕ) where
  bytes : List UInt8
  length_bytes : bytes.length = size

attribute [simp] Element.length_bytes

/-- The number of values of `size_t`. -/
def sizeValues : ℕ := 2 ^ 64

def rellocSize : ℕ := 32

/-- `mem_alloc` returns cleared memory. -/
def memAlloc (size : ℕ) : List UInt8 := List.replicate size 0

/-- Exactly `size` bytes: first the old ones, then cleared ones. -/
def memRealloc (bytes : List UInt8) (size : ℕ) : List UInt8 :=
  bytes.take size ++ List.replicate (size - bytes.length) 0

def readBytes (array : List UInt8) (offset count : ℕ) : Option (List UInt8) :=
  if offset + count ≤ array.length then some ((array.drop offset).take count) else none

def writeBytes (array : List UInt8) (offset : ℕ) (bytes : List UInt8) : Option (List UInt8) :=
  if offset + bytes.length ≤ array.length then
    some (array.take offset ++ (bytes ++ array.drop (offset + bytes.length)))
  else none

/-- The regions of a copy share a byte. -/
def Overlap (dst src count : ℕ) : Prop := dst < src + count ∧ src < dst + count

instance (dst src count : ℕ) : Decidable (Overlap dst src count) :=
  inferInstanceAs (Decidable (_ ∧ _))

/-- What a copy writes: the bytes read, or `left` when the regions overlap. -/
def copied (dst src count : ℕ) (left : ℕ → UInt8) (bytes : List UInt8) : List UInt8 :=
  if Overlap dst src count then (List.range count).map left else bytes

def rteMemcpy (array : List UInt8) (dst src count : ℕ) (left : ℕ → UInt8) : Option (List UInt8) :=
  (readBytes array src count).bind fun bytes ↦
    writeBytes array dst (copied dst src count left bytes)

theorem length_memRealloc (bytes : List UInt8) (size : ℕ) : (memRealloc bytes size).length = size := by
  simp only [memRealloc, List.length_append, List.length_take, List.length_replicate]
  omega

/-- A reallocation keeps what it has room for. -/
theorem memRealloc_append (kept rest : List UInt8) {size : ℕ} (hroom : kept.length ≤ size) :
    ∃ rest', memRealloc (kept ++ rest) size = kept ++ rest' := by
  unfold memRealloc
  rw [List.take_append, List.take_of_length_le hroom, List.append_assoc]
  exact ⟨_, rfl⟩

theorem readBytes_append (before bytes after : List UInt8) :
    readBytes (before ++ (bytes ++ after)) before.length bytes.length = some bytes := by
  have hin : before.length + bytes.length ≤ (before ++ (bytes ++ after)).length := by simp
  rw [readBytes, if_pos hin, List.drop_left, List.take_left]

theorem writeBytes_append (before rest bytes : List UInt8) : writeBytes (before ++ rest) before.length bytes =
      if bytes.length ≤ rest.length then some (before ++ (bytes ++ rest.drop bytes.length)) else none := by
  have hin : before.length + bytes.length ≤ (before ++ rest).length ↔ bytes.length ≤ rest.length := by simp
  simp only [writeBytes, hin, List.take_left, List.drop_append, Nat.add_sub_cancel_left]
  rw [List.drop_eq_nil_of_le (Nat.le_add_right before.length bytes.length), List.nil_append]

/-- The bytes behind `array_`, how many elements they are taken to hold, and how many are in use. -/
structure FixedArray where
  array : List UInt8
  arraySize : ℕ
  curSize : ℕ

namespace FixedArray

variable {size : ℕ}

def init (size initialArraySize : ℕ) : FixedArray where
  array := memAlloc (size * initialArraySize % sizeValues)
  arraySize := initialArraySize
  curSize := 0

/-- The reallocation asks for as many bytes as there are to be elements. -/
def grow (a : FixedArray) : FixedArray :=
  if a.curSize = a.arraySize then
    { a with
      array := memRealloc a.array ((a.arraySize + rellocSize) % sizeValues)
      arraySize := (a.arraySize + rellocSize) % sizeValues }
  else a

def add (a : FixedArray) (newVal : Element size) : Option FixedArray :=
  (writeBytes a.grow.array (size * a.curSize) newVal.bytes).map fun array ↦
    { a.grow with array, curSize := a.curSize + 1 }

def remove (size : ℕ) (a : FixedArray) (pos : ℕ) (left : ℕ → UInt8) : Option FixedArray :=
  if a.curSize ≤ pos then some a
  else if pos = a.curSize - 1 then some { a with curSize := a.curSize - 1 }
  else
    (rteMemcpy a.array (size * pos) (size * (pos + 1)) (size * (a.curSize - 1 - pos)) left).map
      fun array ↦ { a with array, curSize := a.curSize - 1 }

/-- The element behind the returned pointer; null is `some none`. -/
def get (size : ℕ) (a : FixedArray) (pos : ℕ) : Option (Option (List UInt8)) :=
  if a.curSize ≤ pos then some none
  else (readBytes a.array (size * pos) size).map some

/-- The array has the length of the list and returns its elements. -/
def Agrees (a : FixedArray) (list : List (Element size)) : Prop :=
  a.curSize = list.length ∧ ∀ pos, a.get size pos = some (list[pos]?.map Element.bytes)

/-- The elements one behind the other. -/
def encode (list : List (Element size)) : List UInt8 := list.flatMap Element.bytes

theorem encode_append (first second : List (Element size)) :
    encode (first ++ second) = encode first ++ encode second := List.flatMap_append

theorem encode_cons (element : Element size) (rest : List (Element size)) :
    encode (element :: rest) = element.bytes ++ encode rest := List.flatMap_cons

theorem length_encode (list : List (Element size)) : (encode list).length = size * list.length := by
  induction list with
  | nil => rfl
  | cons _ _ ih =>
    rw [encode_cons, List.length_append, ih, Element.length_bytes, List.length_cons, Nat.mul_succ, Nat.add_comm]

/-- The allocated bytes start with the elements of the list. -/
def Starts (a : FixedArray) (list : List (Element size)) : Prop :=
  a.curSize = list.length ∧ ∃ rest, a.array = encode list ++ rest

theorem starts_init (initialArraySize : ℕ) :
    (init size initialArraySize).Starts ([] : List (Element size)) := ⟨rfl, _, rfl⟩

variable {a : FixedArray} {list before : List (Element size)}

theorem Starts.agrees (hstarts : a.Starts list) : a.Agrees list := by
  obtain ⟨hsize, rest, harray⟩ := hstarts
  refine ⟨hsize, fun pos ↦ ?_⟩
  unfold get
  by_cases hpos : pos < list.length
  · have hsplit : list = list.take pos ++ list[pos] :: list.drop (pos + 1) := by
      rw [List.getElem_cons_drop, List.take_append_drop]
    have hbefore : size * pos = (encode (list.take pos)).length := by
      rw [length_encode, List.length_take, min_eq_left hpos.le]
    have hbytes : readBytes a.array (size * pos) size = some list[pos].bytes := by
      have hread := readBytes_append (encode (list.take pos)) list[pos].bytes
        (encode (list.drop (pos + 1)) ++ rest)
      rw [Element.length_bytes, ← hbefore, ← List.append_assoc list[pos].bytes, ← encode_cons,
        ← List.append_assoc, ← encode_append, ← hsplit, ← harray] at hread
      exact hread
    rw [if_neg (by omega), hbytes, List.getElem?_eq_getElem hpos]
    rfl
  · rw [if_pos (by omega), List.getElem?_eq_none (not_lt.1 hpos)]
    rfl

theorem Agrees.starts (hagrees : a.Agrees list) : a.Starts list := by
  have htake (count : ℕ) (hcount : count ≤ list.length) :
      a.array.take (size * count) = encode (list.take count) := by
    induction count with
    | zero => simp [encode]
    | succ count ih =>
      have hget := hagrees.2 count
      have hused : ¬ a.curSize ≤ count := by rw [hagrees.1]; omega
      rw [get, if_neg hused, List.getElem?_eq_getElem hcount, Option.map_some] at hget
      obtain ⟨bytes, hread, hbytes⟩ := Option.map_eq_some_iff.1 hget
      rw [readBytes, Option.some.inj hbytes] at hread
      split at hread
      · calc a.array.take (size * (count + 1))
            = a.array.take (size * count) ++ (a.array.drop (size * count)).take size := by
              rw [Nat.mul_succ, List.take_add]
          _ = encode (list.take count) ++ list[count].bytes := by
              rw [ih (Nat.le_of_succ_le hcount), Option.some.inj hread]
          _ = encode (list.take (count + 1)) := by
              rw [← List.take_append_getElem hcount, encode_append]
              simp [encode]
      · cases hread
  refine ⟨hagrees.1, a.array.drop (size * list.length), ?_⟩
  have hall := htake list.length le_rfl
  rw [List.take_length] at hall
  rw [← hall, List.take_append_drop]

/-- The bytes that the next `add` can use. -/
def usable (a : FixedArray) : ℕ :=
  if a.curSize = a.arraySize then (a.arraySize + rellocSize) % sizeValues else a.array.length

theorem length_grow (a : FixedArray) : a.grow.array.length = a.usable := by
  unfold grow usable
  split
  · exact length_memRealloc _ _
  · rfl

theorem Starts.grow (hstarts : a.Starts list) (hroom : size * list.length ≤ a.usable) :
    ∃ rest, a.grow.array = encode list ++ rest := by
  obtain ⟨-, rest, harray⟩ := hstarts
  unfold usable at hroom
  unfold FixedArray.grow
  split
  · next hfull =>
    rw [if_pos hfull, ← length_encode] at hroom
    rw [harray]
    exact memRealloc_append _ _ hroom
  · exact ⟨rest, harray⟩

/-- The new element is appended if there are bytes for it, and written beyond them otherwise. -/
theorem Starts.add (hstarts : a.Starts list) (newVal : Element size) :
    (size * (a.curSize + 1) ≤ a.usable → ∃ a', a.add newVal = some a' ∧ a'.Starts (list ++ [newVal])) ∧
      (¬ size * (a.curSize + 1) ≤ a.usable → a.add newVal = none) := by
  rw [hstarts.1]
  constructor
  · intro hroom
    rw [Nat.mul_succ] at hroom
    obtain ⟨rest, hrest⟩ := hstarts.grow (Nat.le_trans (Nat.le_add_right _ _) hroom)
    have hlen := a.length_grow
    rw [hrest, List.length_append, length_encode] at hlen
    have hwrite := writeBytes_append (encode list) rest newVal.bytes
    rw [Element.length_bytes, if_pos (by omega), length_encode, ← hrest] at hwrite
    rw [FixedArray.add, hstarts.1, hwrite]
    refine ⟨_, rfl, ?_, rest.drop size, ?_⟩
    · rw [List.length_append]
      rfl
    · rw [encode_append, List.append_assoc]
      simp [encode]
  · intro hroom
    have hout : ¬ size * list.length + newVal.bytes.length ≤ a.grow.array.length := by
      rw [length_grow, Element.length_bytes, ← Nat.mul_succ]
      exact hroom
    rw [FixedArray.add, hstarts.1, writeBytes, if_neg hout]
    rfl

theorem Starts.remove_middle {behind : List (Element size)} {element : Element size}
    (hstarts : a.Starts (before ++ element :: behind)) (hbehind : behind ≠ []) (left : ℕ → UInt8) :
    ∃ a', a.remove size before.length left = some a' ∧ (a'.Starts (before ++ behind) ↔
        copied (size * before.length) (size * (before.length + 1)) (size * behind.length) left
          (encode behind) = encode behind) := by
  obtain ⟨hsize, rest, harray⟩ := hstarts
  rw [List.length_append, List.length_cons] at hsize
  have hpos := List.length_pos_iff.2 hbehind
  have hcount : a.curSize - 1 - before.length = behind.length := by omega
  set bytes := copied (size * before.length) (size * (before.length + 1)) (size * behind.length) left
    (encode behind) with hbytes
  have hlen : bytes.length = size * behind.length := by
    rw [hbytes, copied]
    split
    · rw [List.length_map, List.length_range]
    · exact length_encode behind
  have hread : readBytes a.array (size * (before.length + 1)) (size * behind.length) =
      some (encode behind) := by
    have hread := readBytes_append (encode (before ++ [element])) (encode behind) rest
    rw [length_encode, length_encode, List.length_append, List.length_singleton, ← List.append_assoc,
      ← encode_append, List.append_assoc, List.singleton_append, ← harray] at hread
    exact hread
  obtain ⟨suffix, hwrite⟩ : ∃ suffix, writeBytes a.array (size * before.length) bytes =
      some (encode before ++ (bytes ++ suffix)) := by
    have hwrite := writeBytes_append (encode before) (element.bytes ++ encode behind ++ rest) bytes
    have hroom : bytes.length ≤ (element.bytes ++ encode behind ++ rest).length := by
      rw [hlen, List.length_append, List.length_append, length_encode]
      omega
    rw [if_pos hroom, length_encode, ← encode_cons, ← List.append_assoc, ← encode_append, ← harray] at hwrite
    exact ⟨_, hwrite⟩
  refine ⟨{ a with array := encode before ++ (bytes ++ suffix), curSize := a.curSize - 1 }, ?_, ?_⟩
  · rw [FixedArray.remove, if_neg (by omega), if_neg (by omega), hcount, rteMemcpy, hread, Option.bind_some,
      ← hbytes, hwrite, Option.map_some]
  · constructor
    · intro hafter
      obtain ⟨-, rest', harray'⟩ := hafter
      have hsame : bytes ++ suffix = encode behind ++ rest' := by
        rw [encode_append, List.append_assoc] at harray'
        exact List.append_cancel_left harray'
      exact (List.append_inj hsame (by rw [hlen, length_encode])).1
    · intro hsame
      refine ⟨?_, suffix, ?_⟩
      · change a.curSize - 1 = (before ++ behind).length
        rw [List.length_append]
        omega
      · rw [encode_append, List.append_assoc, ← hsame]

theorem Starts.remove_last {element : Element size} (hstarts : a.Starts (before ++ [element]))
    (left : ℕ → UInt8) : ∃ a', a.remove size before.length left = some a' ∧ a'.Starts before := by
  obtain ⟨hsize, rest, harray⟩ := hstarts
  rw [List.length_append, List.length_singleton] at hsize
  refine ⟨{ a with curSize := a.curSize - 1 }, ?_, ?_, element.bytes ++ rest, ?_⟩
  · rw [FixedArray.remove, if_neg (by omega), if_pos (by omega)]
  · change a.curSize - 1 = before.length
    omega
  · rw [harray, encode_append, List.append_assoc]
    simp [encode]

end FixedArray

/-! ## Runs -/

/-- A call on the array; `left` is what an overlapping copy leaves. -/
inductive ArrayCall (size : ℕ) where
  | add (newVal : Element size)
  | remove (pos : ℕ) (left : ℕ → UInt8)
  | get (pos : ℕ)

/-- An array and the list it stands for. -/
structure ArrayRun (size : ℕ) where
  array : FixedArray
  list : List (Element size)

namespace ArrayRun

open FixedArray (encode)

variable {size : ℕ}

/-- A call that reads or writes beyond the allocated bytes has no result. -/
def step (s : ArrayRun size) : ArrayCall size → Option (ArrayRun size)
  | .add newVal => (s.array.add newVal).map fun array ↦ { array, list := s.list ++ [newVal] }
  | .remove pos left => (s.array.remove size pos left).map fun array ↦ { array, list := s.list.eraseIdx pos }
  | .get pos => (s.array.get size pos).map fun _ ↦ s

def start (size initialArraySize : ℕ) : ArrayRun size where
  array := .init size initialArraySize
  list := []

def system (size initialArraySize : ℕ) : TransitionSystem (ArrayRun size) (ArrayCall size) where
  init s := s = start size initialArraySize
  step := step

/-- A new element ends within the bytes allocated when it is written, and an overlapping copy leaves the bytes
it read. -/
def Fits (s : ArrayRun size) : ArrayCall size → Prop
  | .add _ => size * (s.array.curSize + 1) ≤ s.array.usable
  | .remove pos left => Overlap (size * pos) (size * (pos + 1)) (size * (s.array.curSize - 1 - pos)) →
      (List.range (size * (s.array.curSize - 1 - pos))).map left = encode (s.list.drop (pos + 1))
  | .get _ => True

instance (s : ArrayRun size) : (c : ArrayCall size) → Decidable (s.Fits c)
  | .add _ => inferInstanceAs (Decidable (_ ≤ _))
  | .remove _ _ => inferInstanceAs (Decidable (_ → _))
  | .get _ => inferInstanceAs (Decidable True)

variable {s : ArrayRun size}

theorem starts_add (hstarts : s.array.Starts s.list) (newVal : Element size) :
    (∃ s', s.step (.add newVal) = some s' ∧ s'.array.Starts s'.list) ↔ s.Fits (.add newVal) := by
  have hadd := hstarts.add newVal
  constructor
  · intro hstep
    obtain ⟨s', hs', -⟩ := hstep
    by_contra hfits
    rw [step, hadd.2 hfits] at hs'
    cases hs'
  · intro hfits
    obtain ⟨array, hadded, hafter⟩ := hadd.1 hfits
    exact ⟨{ array, list := s.list ++ [newVal] }, by rw [step, hadded, Option.map_some], hafter⟩

theorem starts_remove (hstarts : s.array.Starts s.list) (pos : ℕ) (left : ℕ → UInt8) :
    (∃ s', s.step (.remove pos left) = some s' ∧ s'.array.Starts s'.list) ↔ s.Fits (.remove pos left) := by
  have hcur := hstarts.1
  have hstep (array : FixedArray) (hremove : s.array.remove size pos left = some array) :
      (∃ s', s.step (.remove pos left) = some s' ∧ s'.array.Starts s'.list) ↔
        array.Starts (s.list.eraseIdx pos) := by
    rw [step, hremove]
    simp
  by_cases hpos : pos < s.list.length
  · have hsplit : s.list = s.list.take pos ++ s.list[pos] :: s.list.drop (pos + 1) := by
      rw [List.getElem_cons_drop, List.take_append_drop]
    have hlen : (s.list.take pos).length = pos := by
      rw [List.length_take, min_eq_left hpos.le]
    rw [hsplit] at hstarts
    by_cases hlast : s.list.drop (pos + 1) = []
    · rw [hlast] at hstarts
      obtain ⟨array, hremove, hafter⟩ := hstarts.remove_last left
      rw [hlen] at hremove
      have hnone : s.array.curSize - 1 - pos = 0 := by
        have := congrArg List.length hlast
        rw [List.length_drop, List.length_nil] at this
        omega
      rw [hstep array hremove, List.eraseIdx_eq_take_drop_succ, hlast, List.append_nil]
      refine ⟨fun _ hoverlap ↦ ?_, fun _ ↦ hafter⟩
      have hapart := hoverlap.2
      rw [hnone, Nat.mul_zero, Nat.add_zero, Nat.mul_succ] at hapart
      omega
    · obtain ⟨array, hremove, hafter⟩ := hstarts.remove_middle hlast left
      have hcount : (s.list.drop (pos + 1)).length = s.array.curSize - 1 - pos := by
        rw [List.length_drop, hcur]
        omega
      rw [hlen] at hremove
      rw [hlen, hcount, copied] at hafter
      rw [hstep array hremove, List.eraseIdx_eq_take_drop_succ, hafter]
      unfold Fits
      constructor
      · intro hsame hoverlap
        rwa [if_pos hoverlap] at hsame
      · intro hfits
        split
        · next hoverlap => exact hfits hoverlap
        · rfl
  · have hremove : s.array.remove size pos left = some s.array := if_pos (by omega)
    rw [hstep s.array hremove, List.eraseIdx_of_length_le (not_lt.1 hpos)]
    refine ⟨fun _ hoverlap ↦ ?_, fun _ ↦ hstarts⟩
    have hapart := hoverlap.2
    rw [show s.array.curSize - 1 - pos = 0 by omega, Nat.mul_zero, Nat.add_zero, Nat.mul_succ] at hapart
    omega

/-- One call keeps array and list together exactly when it fits. -/
theorem starts_step (hstarts : s.array.Starts s.list) (c : ArrayCall size) :
    (∃ s', s.step c = some s' ∧ s'.array.Starts s'.list) ↔ s.Fits c := by
  cases c with
  | add newVal => exact starts_add hstarts newVal
  | remove pos left => exact starts_remove hstarts pos left
  | get pos =>
    refine ⟨fun _ ↦ trivial, fun _ ↦ ⟨s, ?_, hstarts⟩⟩
    rw [step, hstarts.agrees.2 pos, Option.map_some]

theorem starts_reachable {initialArraySize : ℕ} (hreach : (system size initialArraySize).Reachable Fits s) :
    s.array.Starts s.list := by
  apply hreach.invariant
  · intro s hinit
    rw [hinit]
    exact FixedArray.starts_init initialArraySize
  · intro s c s' hstarts hfits hstep
    obtain ⟨s'', hs'', hafter⟩ := (starts_step hstarts c).2 hfits
    rw [show s.step c = some s' from hstep] at hs''
    rw [Option.some.inj hs'']
    exact hafter

/-- Along runs of calls that fit, the array agrees with the list; the next call then stays within the
allocated bytes and keeps the agreement exactly when it fits as well. -/
theorem fixed_array_refines_list {initialArraySize : ℕ} {s : ArrayRun size}
    (hreach : (system size initialArraySize).Reachable Fits s) :
    s.array.Agrees s.list ∧
      ∀ c, (∃ s', s.step c = some s' ∧ s'.array.Agrees s'.list) ↔ s.Fits c := by
  have hstarts := starts_reachable hreach
  refine ⟨hstarts.agrees, fun c ↦ ?_⟩
  rw [← starts_step hstarts c]
  constructor
  · intro h
    obtain ⟨s', hs', hagrees⟩ := h
    exact ⟨s', hs', hagrees.starts⟩
  · intro h
    obtain ⟨s', hs', hafter⟩ := h
    exact ⟨s', hs', hafter.agrees⟩

/-- A byte array of initial size two grows with the third byte and then loses its first. -/
theorem byte_array_refines_list :
    ∃ s : ArrayRun 1, s.list.map Element.bytes = [[8], [9]] ∧ s.array.arraySize = 34 ∧
      s.array.Agrees s.list := by
  obtain ⟨s, hs, hlist, hsize⟩ : ∃ s ∈ (system 1 2).runChecked (fun s c ↦ decide (s.Fits c)) (start 1 2)
      [.add ⟨[7], rfl⟩, .add ⟨[8], rfl⟩, .add ⟨[9], rfl⟩, .get 2,
        .remove 0 fun index ↦ if index = 0 then 8 else 9],
      s.list.map Element.bytes = [[8], [9]] ∧ s.array.arraySize = 34 := by decide +kernel
  exact ⟨s, hlist, hsize, (fixed_array_refines_list (.replayDecided rfl hs)).1⟩

/-- With four-byte elements and initial size two, 34 bytes are left after the third element: the ninth is
written beyond them. -/
theorem ninth_element_out_of_bounds :
    ∃ s : ArrayRun 4, (system 4 2).Reachable TransitionSystem.anyStep s ∧ s.list.length = 8 ∧
      s.array.array.length = 34 ∧ s.array.arraySize = 34 ∧ s.step (.add ⟨[9, 0, 0, 0], rfl⟩) = none := by
  obtain ⟨s, hs, hlength, hbytes, hsize, hfails⟩ :
      ∃ s ∈ (system 4 2).run (start 4 2) (List.replicate 8 (.add ⟨[1, 0, 0, 0], rfl⟩)), s.list.length = 8 ∧
        s.array.array.length = 34 ∧ s.array.arraySize = 34 ∧
        (s.step (.add ⟨[9, 0, 0, 0], rfl⟩)).isNone = true := by decide +kernel
  exact ⟨s, .replay rfl hs, hlength, hbytes, hsize, Option.isNone_iff_eq_none.1 hfails⟩

end ArrayRun

end NfvActor.Utils
