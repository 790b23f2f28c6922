import Mathlib.Tactic
import NfvActor.Foundation.RingBuffer
import NfvActor.Reliable.Message

/-!
# Network functions and the service chain

A network function owns a pool of flow-state slots and some shared state. A flow actor takes one slot of every
function of the service chain, and its packets run through the chain until a function rejects them. Flow states
are of an abstract type `σ`, shared states of a type `τ`.
-/

namespace NfvActor.Actor

open NfvActor.Foundation
open NfvActor.Reliable (Packet)
open Function

/-- `flow_arrive_status`. -/
inductive ArriveStatus
  | migrateIn
  | recoverOn
deriving DecidableEq, Repr

/-- `flow_leave_status`. -/
inductive LeaveStatus
  | idle
  | migrateOut
deriving DecidableEq, Repr

/-- The four entry points that a network function implements. -/
structure NetworkFunction (σ τ : Type) where
  nfLogic : Packet → σ → τ → Bool × Packet × σ × τ
  nfFlowArrive : σ → τ → ArriveStatus → σ × τ
  nfFlowLeave : σ → τ → LeaveStatus → σ × τ
  nfInitFs : σ → σ

/-- The class `pkt_counter`. -/
def pktCounter : NetworkFunction UInt64 Unit where
  nfLogic := fun pkt counter shared ↦ (true, pkt, counter + 1, shared)
  nfFlowArrive := fun counter shared _ ↦ (counter, shared)
  nfFlowLeave := fun counter shared _ ↦ (counter, shared)
  nfInitFs := fun _ ↦ 0

/-- A `network_function_base` object: code, free ring, slots and shared state. -/
structure NfInstance (σ τ : Type) where
  code : NetworkFunction σ τ
  ringBuf : RingBuffer ℕ
  array : ℕ → σ
  sharedState : τ

namespace NfInstance

variable {σ τ : Type}

/-- `init_ring`; `zero` is the flow state made of zero bytes. -/
def initRing (code : NetworkFunction σ τ) (zero : σ) (sharedState : τ) (nfStateNum : ℕ)
    (hpos : 0 < nfStateNum) : NfInstance σ τ where
  code := code
  ringBuf := RingBuffer.filled nfStateNum hpos id
  array := fun _ ↦ zero
  sharedState := sharedState

def deallocate (nf : NfInstance σ τ) (slot : ℕ) : NfInstance σ τ :=
  { nf with ringBuf := (nf.ringBuf.push slot).2 }

/-- Overwrites a flow state. -/
def store (nf : NfInstance σ τ) (slot : ℕ) (state : σ) : NfInstance σ τ :=
  { nf with array := update nf.array slot state }

def nfInitFs (nf : NfInstance σ τ) (slot : ℕ) : NfInstance σ τ :=
  nf.store slot (nf.code.nfInitFs (nf.array slot))

def nfFlowArrive (nf : NfInstance σ τ) (slot : ℕ) (status : ArriveStatus) : NfInstance σ τ :=
  let result := nf.code.nfFlowArrive (nf.array slot) nf.sharedState status
  { nf.store slot result.1 with sharedState := result.2 }

def nfFlowLeave (nf : NfInstance σ τ) (slot : ℕ) (status : LeaveStatus) : NfInstance σ τ :=
  let result := nf.code.nfFlowLeave (nf.array slot) nf.sharedState status
  { nf.store slot result.1 with sharedState := result.2 }

/-- `nf_logic` with its verdict and the packet as the function leaves it. -/
def nfLogic (nf : NfInstance σ τ) (pkt : Packet) (slot : ℕ) : Bool × Packet × NfInstance σ τ :=
  let result := nf.code.nfLogic pkt (nf.array slot) nf.sharedState
  (result.1, result.2.1, { nf.store slot result.2.2.1 with sharedState := result.2.2.2 })

variable (nf : NfInstance σ τ) (slot : ℕ)

@[simp]
theorem ringBuf_nfFlowArrive (status : ArriveStatus) :
    (nf.nfFlowArrive slot status).ringBuf = nf.ringBuf := rfl

@[simp]
theorem ringBuf_nfFlowLeave (status : LeaveStatus) : (nf.nfFlowLeave slot status).ringBuf = nf.ringBuf := rfl

@[simp]
theorem ringBuf_nfLogic (pkt : Packet) : (nf.nfLogic pkt slot).2.2.ringBuf = nf.ringBuf := rfl

end NfInstance

/-- A position of a chain: the network function and its slot (`nfs_.nf[i]`, `fs_.nf_flow_state_ptr[i]`). -/
structure ChainSlot where
  nf : ℕ
  slot : ℕ
deriving DecidableEq, Repr

/-- All network functions of a runtime. -/
abbrev NfTable (σ τ : Type) := ℕ → NfInstance σ τ

/-- The free rings of all network functions. -/
abbrev FreeSlots := ℕ → RingBuffer ℕ

namespace NfTable

variable {σ τ : Type}

/-- Replaces one network function. -/
def set (nfs : NfTable σ τ) (nf : ℕ) (state : NfInstance σ τ) : NfTable σ τ :=
  update nfs nf state

/-- The free rings alone. -/
def free (nfs : NfTable σ τ) : FreeSlots := fun nf ↦ (nfs nf).ringBuf

/-- Applies an operation to every slot of a chain, first position first. -/
def forChain (operation : NfInstance σ τ → ℕ → NfInstance σ τ) :
    NfTable σ τ → List ChainSlot → NfTable σ τ :=
  List.foldl fun nfs position ↦ nfs.set position.nf (operation (nfs position.nf) position.slot)

/-- Takes a slot of every function of the service chain. If one has none left, the slots go back and the chain
is empty. -/
def allocateChain (initialise : Bool) :
    List ℕ → List ChainSlot → NfTable σ τ → List ChainSlot × NfTable σ τ
  | [], taken, nfs => (taken, nfs)
  | nf :: rest, taken, nfs =>
    match (nfs nf).ringBuf.pop with
    | none => ([], forChain NfInstance.deallocate nfs taken)
    | some (slot, ringBuf) =>
      let state := { nfs nf with ringBuf := ringBuf }
      let state' := if initialise then state.nfInitFs slot else state
      allocateChain initialise rest (taken ++ [⟨nf, slot⟩]) (nfs.set nf state')

/-- Runs a packet through the chain up to the first function that rejects it. -/
def runChain : List ChainSlot → Packet → NfTable σ τ → Bool × Packet × NfTable σ τ
  | [], pkt, nfs => (true, pkt, nfs)
  | position :: rest, pkt, nfs =>
    let result := (nfs position.nf).nfLogic pkt position.slot
    let nfs' := nfs.set position.nf result.2.2
    if result.1 then runChain rest result.2.1 nfs' else (false, result.2.1, nfs')

/-- Copies the flow states of a message into the slots of a chain from position `index` on, and runs `operation`
on each. -/
def loadChain (operation : NfInstance σ τ → ℕ → NfInstance σ τ) (states : ℕ → σ) :
    ℕ → List ChainSlot → NfTable σ τ → NfTable σ τ
  | _, [], nfs => nfs
  | index, position :: rest, nfs =>
    let loaded := (nfs position.nf).store position.slot (states index)
    loadChain operation states (index + 1) rest (nfs.set position.nf (operation loaded position.slot))

/-- The flow states that a chain writes into a message; other positions keep what the buffer held. -/
def saveChain (nfs : NfTable σ τ) (chain : List ChainSlot) (stale : ℕ → σ) : ℕ → σ := fun index ↦
  match chain[index]? with
  | some position => (nfs position.nf).array position.slot
  | none => stale index

end NfTable

namespace FreeSlots

/-- Gives the slots of a chain back to their rings. -/
def release : FreeSlots → List ChainSlot → FreeSlots :=
  List.foldl fun free position ↦
    update free position.nf ((free position.nf).push position.slot).2

/-- What `NfTable.allocateChain` does to the rings. -/
def take : List ℕ → List ChainSlot → FreeSlots → List ChainSlot × FreeSlots
  | [], taken, free => (taken, free)
  | nf :: rest, taken, free =>
    match (free nf).pop with
    | none => ([], free.release taken)
    | some (slot, ringBuf) => take rest (taken ++ [⟨nf, slot⟩]) (update free nf ringBuf)

end FreeSlots

namespace NfTable

variable {σ τ : Type}

@[simp]
theorem free_set (nfs : NfTable σ τ) (nf : ℕ) (state : NfInstance σ τ) :
    (nfs.set nf state).free = update nfs.free nf state.ringBuf := by
  funext other
  simp only [free, set, update_apply]
  split <;> rfl

theorem free_set_same {nfs : NfTable σ τ} {nf : ℕ} {state : NfInstance σ τ}
    (hring : state.ringBuf = (nfs nf).ringBuf) : (nfs.set nf state).free = nfs.free := by
  rw [free_set, hring]
  exact update_eq_self nf nfs.free

variable {operation : NfInstance σ τ → ℕ → NfInstance σ τ}

theorem free_forChain (hring : ∀ nf slot, (operation nf slot).ringBuf = nf.ringBuf) (nfs : NfTable σ τ)
    (chain : List ChainSlot) : (forChain operation nfs chain).free = nfs.free := by
  induction chain generalizing nfs with
  | nil => rfl
  | cons position rest ih =>
    calc (forChain operation nfs (position :: rest)).free
        = (nfs.set position.nf (operation (nfs position.nf) position.slot)).free := ih _
      _ = nfs.free := free_set_same (hring _ _)

theorem free_forChain_push (hring : ∀ nf slot, (operation nf slot).ringBuf = (nf.ringBuf.push slot).2)
    (nfs : NfTable σ τ) (chain : List ChainSlot) :
    (forChain operation nfs chain).free = nfs.free.release chain := by
  induction chain generalizing nfs with
  | nil => rfl
  | cons position rest ih =>
    calc (forChain operation nfs (position :: rest)).free
        = (nfs.set position.nf (operation (nfs position.nf) position.slot)).free.release rest := ih _
      _ = nfs.free.release (position :: rest) := by rw [free_set, hring]; rfl

theorem free_runChain (chain : List ChainSlot) (pkt : Packet) (nfs : NfTable σ τ) :
    (runChain chain pkt nfs).2.2.free = nfs.free := by
  induction chain generalizing pkt nfs with
  | nil => rfl
  | cons _ _ ih =>
    simp only [runChain]
    split
    · rw [ih]
      exact free_set_same (NfInstance.ringBuf_nfLogic _ _ _)
    · exact free_set_same (NfInstance.ringBuf_nfLogic _ _ _)

theorem free_loadChain (hring : ∀ nf slot, (operation nf slot).ringBuf = nf.ringBuf) (states : ℕ → σ)
    (index : ℕ) (chain : List ChainSlot) (nfs : NfTable σ τ) :
    (loadChain operation states index chain nfs).free = nfs.free := by
  induction chain generalizing index nfs with
  | nil => rfl
  | cons _ _ ih =>
    rw [loadChain, ih]
    exact free_set_same (hring _ _)

theorem allocateChain_free (initialise : Bool) (serviceChain : List ℕ) (taken : List ChainSlot)
    (nfs : NfTable σ τ) :
    (allocateChain initialise serviceChain taken nfs).1 = (FreeSlots.take serviceChain taken nfs.free).1 ∧
      (allocateChain initialise serviceChain taken nfs).2.free =
        (FreeSlots.take serviceChain taken nfs.free).2 := by
  induction serviceChain generalizing taken nfs with
  | nil => exact ⟨rfl, rfl⟩
  | cons nf _ ih =>
    simp only [allocateChain, FreeSlots.take]
    have hpop : (nfs.free nf).pop = (nfs nf).ringBuf.pop := rfl
    rw [hpop]
    cases (nfs nf).ringBuf.pop with
    | none => exact ⟨rfl, free_forChain_push (fun _ _ ↦ rfl) nfs taken⟩
    | some popped =>
      have hnext := ih (taken ++ [⟨nf, popped.1⟩])
        (nfs.set nf (if initialise then { nfs nf with ringBuf := popped.2 }.nfInitFs popped.1
          else { nfs nf with ringBuf := popped.2 }))
      have hring : (if initialise then { nfs nf with ringBuf := popped.2 }.nfInitFs popped.1
          else { nfs nf with ringBuf := popped.2 }).ringBuf = popped.2 := by
        split <;> rfl
      rw [free_set, hring] at hnext
      exact hnext

end NfTable

end NfvActor.Actor
