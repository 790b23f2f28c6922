import Mathlib.Tactic

/-!
# Runs of a partial transition function

A system steps by a partial function of its state and an input that the environment decides; an undefined step
stands for a fault. A guard on state and input selects the runs whose every step satisfies it.
-/

namespace NfvActor.Foundation

universe u v

/-- Initial states together with a partial step function. -/
structure TransitionSystem (State : Type u) (Input : Type v) where
  init : State → Prop
  step : State → Input → Option State

namespace TransitionSystem

variable {State : Type u} {Input : Type v}

/-- States reached by runs all of whose steps satisfy the guard. -/
inductive Reachable (system : TransitionSystem State Input) (guard : State → Input → Prop) :
    State → Prop
  | start {state : State} : system.init state → Reachable system guard state
  | next {state state' : State} (input : Input) : Reachable system guard state →
      guard state input → system.step state input = some state' → Reachable system guard state'

/-- The guard of unrestricted runs. -/
def anyStep (_ : State) (_ : Input) : Prop := True

variable {system : TransitionSystem State Input} {guard : State → Input → Prop}

/-- A property of initial states that guarded steps preserve holds in every run. -/
theorem Reachable.invariant {inv : State → Prop} {state : State} (hreach : system.Reachable guard state)
    (hinit : ∀ s, system.init s → inv s)
    (hstep : ∀ s input s', inv s → guard s input → system.step s input = some s' → inv s') : inv state := by
  induction hreach with
  | start h => exact hinit _ h
  | next _ _ hguard hs ih => exact hstep _ _ _ ih hguard hs

theorem Reachable.weaken {guard' : State → Input → Prop} {state : State}
    (hreach : system.Reachable guard state) (himp : ∀ s input, guard s input → guard' s input) :
    system.Reachable guard' state := by
  induction hreach with
  | start h => exact .start h
  | next input _ hguard hs ih => exact .next input ih (himp _ _ hguard) hs

/-- Replay a list of inputs. -/
def run (system : TransitionSystem State Input) : State → List Input → Option State
  | state, [] => some state
  | state, input :: rest => (system.step state input).bind fun state' ↦ run system state' rest

/-- A replay whose inputs satisfy the guard in any state is a guarded run. -/
theorem reachable_run {state state' : State} (inputs : List Input)
    (hreach : system.Reachable guard state) (hguard : ∀ input ∈ inputs, ∀ s, guard s input)
    (hrun : system.run state inputs = some state') : system.Reachable guard state' := by
  induction inputs generalizing state with
  | nil =>
    simp only [run, Option.some.injEq] at hrun
    exact hrun ▸ hreach
  | cons input _ ih =>
    obtain ⟨mid, hmid, hrest⟩ := Option.bind_eq_some_iff.1 hrun
    have hstep := hguard input List.mem_cons_self state
    exact ih (.next input hreach hstep hmid) (fun i hi ↦ hguard i (List.mem_cons_of_mem _ hi)) hrest

/-- A replay from an initial state is a run. -/
theorem Reachable.replay {state state' : State} {inputs : List Input} (hinit : system.init state)
    (hrun : system.run state inputs = some state') : system.Reachable anyStep state' :=
  reachable_run inputs (.start hinit) (fun _ _ _ ↦ trivial) hrun

/-- A replay that stops at the first step that does not pass a test. -/
def runChecked (system : TransitionSystem State Input) (check : State → Input → Bool) :
    State → List Input → Option State
  | state, [] => some state
  | state, input :: rest =>
    if check state input then
      (system.step state input).bind fun state' ↦ runChecked system check state' rest
    else
      none

theorem run_of_runChecked {state state' : State} {check : State → Input → Bool} {inputs : List Input}
    (hrun : system.runChecked check state inputs = some state') : system.run state inputs = some state' := by
  induction inputs generalizing state with
  | nil => exact hrun
  | cons _ _ ih =>
    rw [runChecked] at hrun
    split at hrun
    · obtain ⟨mid, hmid, hrest⟩ := Option.bind_eq_some_iff.1 hrun
      rw [run, hmid]
      exact ih hrest
    · cases hrun

/-- A replay that passes a test for the guard is a guarded run. -/
theorem reachable_runChecked {state state' : State} {check : State → Input → Bool} (inputs : List Input)
    (hreach : system.Reachable guard state) (hcheck : ∀ s input, check s input = true → guard s input)
    (hrun : system.runChecked check state inputs = some state') : system.Reachable guard state' := by
  induction inputs generalizing state with
  | nil =>
    simp only [runChecked, Option.some.injEq] at hrun
    exact hrun ▸ hreach
  | cons input _ ih =>
    rw [runChecked] at hrun
    split at hrun
    · next hpass =>
      obtain ⟨mid, hmid, hrest⟩ := Option.bind_eq_some_iff.1 hrun
      exact ih (.next input hreach (hcheck state input hpass) hmid) hrest
    · cases hrun

/-- A checked replay from an initial state is a run whose guard is the test. -/
theorem Reachable.replayChecked {state state' : State} {check : State → Input → Bool} {inputs : List Input}
    (hinit : system.init state) (hrun : system.runChecked check state inputs = some state') :
    system.Reachable (fun s input ↦ check s input = true) state' :=
  reachable_runChecked inputs (.start hinit) (fun _ _ hcheck ↦ hcheck) hrun

theorem Reachable.replayDecided [∀ s input, Decidable (guard s input)] {state state' : State}
    {inputs : List Input} (hinit : system.init state)
    (hrun : system.runChecked (fun s input ↦ decide (guard s input)) state inputs = some state') :
    system.Reachable guard state' :=
  reachable_runChecked inputs (.start hinit) (fun _ _ hcheck ↦ of_decide_eq_true hcheck) hrun

end TransitionSystem

end NfvActor.Foundation
