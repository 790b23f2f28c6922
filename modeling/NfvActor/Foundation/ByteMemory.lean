import Mathlib.Tactic

/-!
# Byte memory

Memory that is written in runs of bytes, and what a read sees of a write at the same place and of a write
behind it.
-/

namespace NfvActor.Foundation

/-- A byte for every address. -/
abbrev ByteMemory := ℕ → UInt8

namespace ByteMemory

/-- Writes the bytes from the address on. -/
def store (memory : ByteMemory) (address : ℕ) (bytes : List UInt8) : ByteMemory :=
  fun position ↦ if position < address then memory position
    else bytes.getD (position - address) (memory position)

/-- The bytes from the address on. -/
def load (memory : ByteMemory) (address length : ℕ) : List UInt8 :=
  (List.range length).map fun index ↦ memory (address + index)

variable (memory : ByteMemory)

@[simp]
theorem length_load (address length : ℕ) : (memory.load address length).length = length := by
  simp [load]

theorem load_add (address length more : ℕ) : memory.load address (length + more) =
      memory.load address length ++ memory.load (address + length) more := by
  simp [load, List.range_add, Nat.add_assoc]

theorem load_store_self (address : ℕ) {bytes : List UInt8} {length : ℕ} (h : length ≤ bytes.length) :
    (memory.store address bytes).load address length = bytes.take length := by
  apply List.ext_getElem
  · rw [length_load, List.length_take, min_eq_left h]
  · intro index hindex hindex'
    rw [length_load] at hindex
    have hinside : index < bytes.length := hindex.trans_le h
    simp [load, store, hinside]

theorem load_store_behind {address length address' : ℕ} (bytes : List UInt8) (h : address + length ≤ address') :
    (memory.store address' bytes).load address length = memory.load address length := by
  apply List.map_congr_left
  intro index hindex
  have hbelow : address + index < address' := by
    have := List.mem_range.1 hindex
    omega
  rw [store, if_pos hbelow]

end ByteMemory

end NfvActor.Foundation
