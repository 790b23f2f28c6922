import Mathlib.Tactic
import NfvActor.Timers.Calls
import NfvActor.Migration.Shipping

/-!
# Message ids and actor ids

As long as the 32-bit counters do not wrap around, they give out ids larger than those in use: message ids than
those in armed request timers, actor ids than those of live actors. Once a counter has wrapped, it gives out the
reserved ids.
-/

namespace NfvActor.Actor.Runtime

open NfvActor.Foundation
open NfvActor.Reliable (Packet)

variable {σ τ : Type}

/-- Neither counter passes zero in the step. -/
def countersHold (rt : Runtime σ τ) (input : Input σ) : Bool :=
  rt.messageIdsHold input && rt.ledger.actorIdsHold input

variable {rt rt' : Runtime σ τ} {input : Input σ}

/-- What the counters guarantee. -/
structure Identified (rt : Runtime σ τ) : Prop where
  sound : rt.ledger.Sound
  message : 2 ≤ idBound rt.nextMsgId
  actor : 2 ≤ idBound rt.nextFlowActorId
  ids : rt.ledger.IdsFresh
  armed : ∀ ptr kind, kind ≠ .idle → (rt.timers ptr kind).Armed →
    (rt.timers ptr kind).requestMsgId.toNat < idBound rt.nextMsgId

/-- The id that a request carries is smaller than the next one. -/
theorem Requested.toNat_lt {ptr : ℕ} {kind : TimerKind} {msgId : UInt32}
    (h : rt.Requested rt' ptr kind msgId) (hle : idBound rt.nextMsgId ≤ idBound rt'.nextMsgId) :
    idBound rt.nextMsgId ≤ msgId.toNat ∧ msgId.toNat < idBound rt'.nextMsgId := by
  rw [h.next, idBound_succ] at hle ⊢
  exact ⟨idBound_le_toNat h.fresh hle, Nat.lt_succ_self _⟩

/-- Armed request timers hold ids below the counter. -/
theorem armedBelow_step
    (h : ∀ ptr kind, kind ≠ .idle → (rt.timers ptr kind).Armed →
      (rt.timers ptr kind).requestMsgId.toNat < idBound rt.nextMsgId)
    (hstep : rt.step input = some rt') (hle : idBound rt.nextMsgId ≤ idBound rt'.nextMsgId) (ptr : ℕ)
    (kind : TimerKind) (hkind : kind ≠ .idle) (harmed : (rt'.timers ptr kind).Armed) :
    (rt'.timers ptr kind).requestMsgId.toNat < idBound rt'.nextMsgId := by
  have hmakes := step_makes input hstep
  rcases TimerTable.calls_cases hmakes.run ptr kind with
    ⟨-, hsame⟩ | hoff | ⟨list, msgId, msgType, hmem, hon⟩
  · rw [hsame] at harmed ⊢
    exact (h ptr kind hkind harmed).trans_le hle
  · exact absurd hoff harmed
  · rw [hon]
    rcases hmakes.arms _ hmem with hidle | hrequest
    · exact absurd hidle.1 hkind
    · exact (hrequest.2.2.toNat_lt hle).2

theorem Identified.step (h : rt.Identified) (hcounters : rt.countersHold input = true)
    (hstep : rt.step input = some rt') : rt'.Identified := by
  obtain ⟨hmessage, hactor⟩ := Bool.and_eq_true_iff.1 hcounters
  have hle := idBound_mono hmessage hstep
  have heffect := step_effect h.sound.blank input hstep
  obtain ⟨hids, hle'⟩ := h.ids.effect h.sound hactor heffect
  exact ⟨h.sound.effect heffect, h.message.trans hle, h.actor.trans hle', hids, armedBelow_step h.armed hstep hle⟩

theorem identified_boot (config : RuntimeConfig) (serviceChain : List ℕ) (code : ℕ → NetworkFunction σ τ)
    (zero : ℕ → σ) (sharedState : ℕ → τ) : (boot config serviceChain code zero sharedState).Identified := by
  refine ⟨sound_boot config serviceChain code zero sharedState, ?_, ?_,
    idsFresh_boot config serviceChain code zero sharedState, ?_⟩
  · change 2 ≤ idBound messageIdStart
    decide
  · change 2 ≤ idBound (flowActorIdStart + 1)
    decide
  · intro ptr kind _ harmed
    rw [timers, ← card_timer] at harmed
    exact absurd harmed ((blank_boot config serviceChain code zero sharedState ptr).timers kind)

end NfvActor.Actor.Runtime
