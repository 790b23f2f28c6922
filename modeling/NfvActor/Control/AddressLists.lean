import Mathlib.Data.List.AList
import Mathlib.Tactic
import NfvActor.Control.Negotiation

/-!
# Lists of addresses

`AddOutputRts`, `AddReplicas` and `SetMigrationTarget` call every address of a list that passes a check. The
first two skip an address that fails it; the third gives up the rest of the list. What the calls return is fixed
per address here.
-/

namespace NfvActor.Control

open Function

/-- The configuration with which the runtime under an address answers, if it does. -/
abbrev CallOutcome := List Char → Option RuntimeConfig

/-- The key of a recorded answer, which `AddReplicas` makes from the answer. -/
def Negotiation.recordKey (negotiation : Negotiation) (destAddr : List Char) (config : RuntimeConfig) :
    List Char :=
  match negotiation with
  | .addOutputRts | .setMigrationTarget => destAddr
  | .addReplicas => config.address.text

namespace NamedState

variable (state : NamedState)

/-- The text of the runtime itself. -/
def localAddr : List Char := state.localRuntime.address.text

/-- The test at the head of the three loops. -/
def rejects (destAddr : List Char) : Negotiation → Prop
  | .addOutputRts =>
    destAddr ∈ state.runtimes .output ∨ destAddr ∈ state.runtimes .input ∨
      destAddr = state.localAddr ∨ destAddr ∈ state.runtimes .replica ∨
      destAddr ∈ state.runtimes .storage ∨ destAddr ∈ state.runtimes .migrationTarget ∨
      destAddr ∈ state.runtimes .migrationSource
  | .setMigrationTarget =>
    destAddr = state.localAddr ∨ destAddr ∈ state.runtimes .migrationTarget ∨
      destAddr ∈ state.runtimes .replica ∨ destAddr ∈ state.runtimes .storage ∨
      destAddr ∈ state.runtimes .input ∨ destAddr ∈ state.runtimes .output
  | .addReplicas =>
    destAddr ∈ state.runtimes .replica ∨ destAddr = state.localAddr ∨
      destAddr ∈ state.runtimes .migrationTarget ∨ destAddr ∈ state.runtimes .migrationSource ∨
      destAddr ∈ state.runtimes .input ∨ destAddr ∈ state.runtimes .output

instance (state : NamedState) (destAddr : List Char) (negotiation : Negotiation) :
    Decidable (state.rejects destAddr negotiation) :=
  match negotiation with
  | .addOutputRts | .setMigrationTarget | .addReplicas => inferInstanceAs (Decidable (_ ∨ _))

/-- The call of one address, and the record of its answer. -/
def call (outcome : CallOutcome) (negotiation : Negotiation) (destAddr : List Char) :
    NamedState :=
  match outcome destAddr with
  | none => state
  | some config => state.emplace negotiation.callerRole (negotiation.recordKey destAddr config) config

/-- The loop that goes on behind an address that fails the check. -/
def skipRejected (outcome : CallOutcome) (negotiation : Negotiation) :
    NamedState → List AddressMessage → NamedState
  | state, [] => state
  | state, message :: rest =>
    if state.rejects message.text negotiation then skipRejected outcome negotiation state rest
    else skipRejected outcome negotiation (state.call outcome negotiation message.text) rest

def addOutputRts (state : NamedState) (outcome : CallOutcome) (addrs : List AddressMessage) : NamedState :=
  skipRejected outcome .addOutputRts state addrs

def addReplicas (state : NamedState) (outcome : CallOutcome) (addrs : List AddressMessage) : NamedState :=
  skipRejected outcome .addReplicas state addrs

/-- An address that fails the check ends the RPC. -/
def setMigrationTarget (outcome : CallOutcome) : NamedState → List AddressMessage → NamedState
  | state, [] => state
  | state, message :: rest =>
    if state.rejects message.text .setMigrationTarget then state
    else setMigrationTarget outcome (state.call outcome .setMigrationTarget message.text) rest

/-- The handler of an RPC of the controller. -/
def proceed (outcome : CallOutcome) (negotiation : Negotiation) (addrs : List AddressMessage) : NamedState :=
  match negotiation with
  | .addOutputRts => state.addOutputRts outcome addrs
  | .addReplicas => state.addReplicas outcome addrs
  | .setMigrationTarget => setMigrationTarget outcome state addrs

/-- The peers that the caller knows in the role it calls for. -/
def peer (negotiation : Negotiation) (key : List Char) : Option RuntimeConfig :=
  (state.runtimes negotiation.callerRole).lookup key

/-- The peers known, and the answers of listed addresses that pass the check. -/
def expected (outcome : CallOutcome) (negotiation : Negotiation)
    (addrs : List AddressMessage) (key : List Char) : Option RuntimeConfig :=
  if key ∈ addrs.map AddressMessage.text ∧ ¬ state.rejects key negotiation then outcome key
  else state.peer negotiation key

/-- The peers added are the answers of the listed addresses that pass the check. -/
def Pointwise (outcome : CallOutcome) (negotiation : Negotiation) (addrs : List AddressMessage) : Prop :=
  ∀ key, (state.proceed outcome negotiation addrs).peer negotiation key =
    state.expected outcome negotiation addrs key

section Call

variable {state : NamedState} {outcome : CallOutcome} {negotiation : Negotiation} {destAddr key : List Char}
  {config : RuntimeConfig}

theorem peer_eq_none (hrejects : ¬ state.rejects key negotiation) : state.peer negotiation key = none := by
  apply AList.lookup_eq_none.2
  cases negotiation with
  | addOutputRts | addReplicas => exact fun h ↦ hrejects (.inl h)
  | setMigrationTarget => exact fun h ↦ hrejects (.inr (.inl h))

theorem mem_emplace {role other : Role} : key ∈ (state.emplace role destAddr config).runtimes other ↔
      key ∈ state.runtimes other ∨ other = role ∧ key = destAddr := by
  by_cases hrole : other = role
  · subst hrole
    simp only [emplace, update_self, NamedMap.emplace, true_and]
    split
    · next hmem => exact ⟨.inl, fun h ↦ h.elim id fun heq ↦ heq ▸ hmem⟩
    · rw [AList.mem_insert, or_comm]
  · simp [emplace, hrole]

/-- A peer that was added fails the check from then on, and no other address is affected. -/
theorem rejects_emplace : (state.emplace negotiation.callerRole destAddr config).rejects key negotiation ↔
      state.rejects key negotiation ∨ key = destAddr := by
  cases negotiation <;>
    simp only [rejects, mem_emplace, Negotiation.callerRole, reduceCtorEq, false_and, or_false, true_and] <;>
    exact ⟨fun h ↦ by tauto, fun h ↦ by tauto⟩

theorem peer_emplace (hnew : ¬ state.rejects destAddr negotiation) :
    (state.emplace negotiation.callerRole destAddr config).peer negotiation key =
      if key = destAddr then some config else state.peer negotiation key := by
  have habsent : destAddr ∉ state.runtimes negotiation.callerRole := AList.lookup_eq_none.1 (peer_eq_none hnew)
  simp only [peer, emplace, update_self, NamedMap.emplace, if_neg habsent]
  split
  · next heq => rw [heq, AList.lookup_insert]
  · next hne => exact AList.lookup_insert_ne hne

theorem peer_of_emplace {found : RuntimeConfig}
    (hfound : (state.emplace negotiation.callerRole destAddr config).peer negotiation key = some found) :
    state.peer negotiation key = some found ∨ key = destAddr ∧ found = config := by
  simp only [peer, emplace, update_self, NamedMap.emplace] at hfound
  split at hfound
  · exact .inl hfound
  · by_cases hkey : key = destAddr
    · rw [hkey, AList.lookup_insert] at hfound
      exact .inr ⟨hkey, (Option.some.inj hfound).symm⟩
    · rw [AList.lookup_insert_ne hkey] at hfound
      exact .inl hfound

theorem call_of_none (hanswer : outcome destAddr = none) :
    state.call outcome negotiation destAddr = state := by
  rw [call, hanswer]

theorem call_of_some (hanswer : outcome destAddr = some config) : state.call outcome negotiation destAddr =
      state.emplace negotiation.callerRole (negotiation.recordKey destAddr config) config := by
  rw [call, hanswer]

variable {message : AddressMessage} {rest : List AddressMessage}

theorem expected_cons_of_rejects (hrejects : state.rejects message.text negotiation) :
    state.expected outcome negotiation (message :: rest) = state.expected outcome negotiation rest := by
  funext key
  by_cases heq : key = message.text
  · simp [expected, heq, hrejects]
  · simp [expected, heq]

theorem expected_cons_of_passes (hpasses : ¬ state.rejects message.text negotiation)
    (hfiled : ∀ config, outcome message.text = some config →
      negotiation.recordKey message.text config = message.text) :
    state.expected outcome negotiation (message :: rest) =
      (state.call outcome negotiation message.text).expected outcome negotiation rest := by
  funext key
  cases hanswer : outcome message.text with
  | none =>
    rw [call_of_none hanswer]
    by_cases heq : key = message.text
    · simp [expected, heq, hpasses, hanswer, peer_eq_none hpasses]
    · simp [expected, heq]
  | some config =>
    rw [call_of_some hanswer, hfiled config hanswer]
    by_cases heq : key = message.text
    · simp [expected, rejects_emplace, peer_emplace hpasses, heq, hanswer, hpasses]
    · simp [expected, rejects_emplace, peer_emplace hpasses, heq]

end Call

section Skip

variable {outcome : CallOutcome} {negotiation : Negotiation}

/-- Where answers are filed under the address called, skipping is pointwise. -/
theorem peer_skipRejected (state : NamedState) (addrs : List AddressMessage)
    (hfiled : ∀ key ∈ addrs.map AddressMessage.text, ¬ state.rejects key negotiation →
      ∀ config, outcome key = some config → negotiation.recordKey key config = key) :
    (skipRejected outcome negotiation state addrs).peer negotiation =
      state.expected outcome negotiation addrs := by
  induction addrs generalizing state with
  | nil =>
    funext key
    simp [skipRejected, expected]
  | cons message rest ih =>
    have hrest : ∀ key ∈ rest.map AddressMessage.text, ¬ state.rejects key negotiation →
        ∀ config, outcome key = some config → negotiation.recordKey key config = key :=
      fun key hmem ↦ hfiled key (List.mem_cons_of_mem _ hmem)
    rw [skipRejected]
    split
    · next hrejects => rw [ih state hrest, expected_cons_of_rejects hrejects]
    · next hpasses =>
      have hmessage := hfiled message.text List.mem_cons_self hpasses
      rw [expected_cons_of_passes hpasses hmessage]
      apply ih
      intro key hmem hkept
      apply hrest key hmem
      intro hrejects
      cases hanswer : outcome message.text with
      | none => exact hkept (by rwa [call_of_none hanswer])
      | some => exact hkept (by rw [call_of_some hanswer, rejects_emplace]; exact .inl hrejects)

/-- Whatever `AddReplicas` adds is filed under the address in the answer. -/
theorem address_of_addReplicas {state : NamedState} {addrs : List AddressMessage} {key : List Char}
    {config : RuntimeConfig}
    (hpeer : (skipRejected outcome .addReplicas state addrs).peer .addReplicas key = some config) :
    state.peer .addReplicas key = some config ∨ key = config.address.text := by
  induction addrs generalizing state with
  | nil => exact .inl hpeer
  | cons message _ ih =>
    rw [skipRejected] at hpeer
    split at hpeer
    · exact ih hpeer
    · cases ih hpeer with
      | inr hkey => exact .inr hkey
      | inl hcall =>
        cases hanswer : outcome message.text with
        | none => exact .inl (by rwa [call_of_none hanswer] at hcall)
        | some =>
          rw [call_of_some hanswer] at hcall
          cases peer_of_emplace hcall with
          | inl hold => exact .inl hold
          | inr hnew =>
            rw [hnew.2]
            exact .inr hnew.1

end Skip

/-! ## The loop that gives up -/

/-- Behind an address that fails the check, or was added before, stands nothing new that could be added. -/
def Unhindered (outcome : CallOutcome) (addrs : List AddressMessage) : Prop :=
  ∀ before message behind, addrs = before ++ message :: behind →
    (state.rejects message.text .setMigrationTarget ∨
      (outcome message.text).isSome ∧ message.text ∈ before.map AddressMessage.text) →
    ∀ key ∈ behind.map AddressMessage.text, ¬ state.rejects key .setMigrationTarget →
      (outcome key).isSome → key ∈ before.map AddressMessage.text

section GiveUp

variable {state : NamedState} {outcome : CallOutcome} {message : AddressMessage} {rest : List AddressMessage}

/-- An address that fails the check hinders everything behind it. -/
theorem unhindered_cons_of_rejects (hrejects : state.rejects message.text .setMigrationTarget) :
    state.Unhindered outcome (message :: rest) ↔ ∀ key ∈ rest.map AddressMessage.text,
      ¬ state.rejects key .setMigrationTarget → outcome key = none := by
  constructor
  · intro h key hkey hpasses
    by_contra hanswer
    exact absurd (h [] message rest rfl (.inl hrejects) key hkey hpasses (Option.isSome_iff_ne_none.2 hanswer))
      List.not_mem_nil
  · intro h before other behind hsplit _ key hkey hpasses hanswer
    cases before with
    | nil =>
      rw [List.nil_append] at hsplit
      rw [← (List.cons.inj hsplit).2] at hkey
      rw [h key hkey hpasses] at hanswer
      cases hanswer
    | cons =>
      rw [List.cons_append] at hsplit
      have hmem : key ∈ rest.map AddressMessage.text := by
        rw [(List.cons.inj hsplit).2, List.map_append, List.map_cons]
        exact List.mem_append_right _ (List.mem_cons_of_mem _ hkey)
      rw [h key hmem hpasses] at hanswer
      cases hanswer

/-- An address that passes hinders nothing, and behind it the list is as after its call. -/
theorem unhindered_cons_of_passes (hpasses : ¬ state.rejects message.text .setMigrationTarget) :
    state.Unhindered outcome (message :: rest) ↔
      (state.call outcome .setMigrationTarget message.text).Unhindered outcome rest := by
  have hrejects (key : List Char) :
      (state.call outcome .setMigrationTarget message.text).rejects key .setMigrationTarget ↔
        state.rejects key .setMigrationTarget ∨ (outcome message.text).isSome ∧ key = message.text := by
    cases hanswer : outcome message.text with
    | none => simp [call_of_none hanswer]
    | some => simp [call_of_some hanswer, rejects_emplace, Negotiation.recordKey]
  constructor
  · intro h before other behind hsplit hstops key hkey hkeyPasses hanswer
    rw [hrejects, not_or] at hkeyPasses
    have hmem := h (message :: before) other behind (by rw [hsplit]; rfl) (by
      rw [List.map_cons, List.mem_cons]
      rw [hrejects] at hstops
      rcases hstops with (hstops | hstops) | hstops
      · exact .inl hstops
      · exact .inr ⟨hstops.2 ▸ hstops.1, .inl hstops.2⟩
      · exact .inr ⟨hstops.1, .inr hstops.2⟩) key hkey hkeyPasses.1 hanswer
    rw [List.map_cons, List.mem_cons] at hmem
    exact hmem.resolve_left fun heq ↦ hkeyPasses.2 ⟨heq ▸ hanswer, heq⟩
  · intro h before other behind hsplit hstops key hkey hkeyPasses hanswer
    cases before with
    | nil =>
      rw [← (List.cons.inj hsplit).1] at hstops
      rcases hstops with hstops | hstops
      · exact absurd hstops hpasses
      · exact absurd hstops.2 List.not_mem_nil
    | cons _ before =>
      rw [List.cons_append] at hsplit
      rw [← (List.cons.inj hsplit).1, List.map_cons, List.mem_cons] at hstops ⊢
      by_cases heq : key = message.text
      · exact .inl heq
      · refine .inr (h before other behind (List.cons.inj hsplit).2 ?_ key hkey ?_ hanswer)
        · rw [hrejects]
          rcases hstops with hstops | ⟨hsome, hsame | hearlier⟩
          · exact .inl (.inl hstops)
          · exact .inl (.inr ⟨hsame ▸ hsome, hsame⟩)
          · exact .inr ⟨hsome, hearlier⟩
        · rw [hrejects]
          exact not_or.2 ⟨hkeyPasses, fun h ↦ heq h.2⟩

theorem peer_setMigrationTarget_iff (state : NamedState) (addrs : List AddressMessage) :
    (setMigrationTarget outcome state addrs).peer .setMigrationTarget =
        state.expected outcome .setMigrationTarget addrs ↔ state.Unhindered outcome addrs := by
  induction addrs generalizing state with
  | nil =>
    constructor
    · intro _ before message behind hsplit
      exact absurd hsplit (by simp)
    · intro _
      funext key
      simp [setMigrationTarget, expected]
  | cons _ rest ih =>
    rw [setMigrationTarget]
    split
    · next hrejects =>
      rw [unhindered_cons_of_rejects hrejects, expected_cons_of_rejects hrejects, funext_iff]
      refine forall_congr' fun key ↦ ?_
      unfold expected
      by_cases hkey : key ∈ rest.map AddressMessage.text ∧ ¬ state.rejects key .setMigrationTarget
      · rw [if_pos hkey, peer_eq_none hkey.2]
        exact ⟨fun h _ _ ↦ h.symm, fun h ↦ (h hkey.1 hkey.2).symm⟩
      · rw [if_neg hkey]
        exact ⟨fun _ hmem hpasses ↦ absurd ⟨hmem, hpasses⟩ hkey, fun _ ↦ rfl⟩
    · next hpasses =>
      rw [unhindered_cons_of_passes hpasses, expected_cons_of_passes hpasses fun _ _ ↦ rfl]
      exact ih _

end GiveUp

/-- The condition: none for `AddOutputRts`, that a peer answers with the address called for `AddReplicas`, that
no address hinders another for `SetMigrationTarget`. -/
def Independent (outcome : CallOutcome) (addrs : List AddressMessage) :
    Negotiation → Prop
  | .addOutputRts => True
  | .addReplicas => ∀ key ∈ addrs.map AddressMessage.text, ¬ state.rejects key .addReplicas →
      ∀ config, outcome key = some config → config.address.text = key
  | .setMigrationTarget => state.Unhindered outcome addrs

/-- The peers added are the answers of the listed addresses that pass the check, in any order and with
repetitions, exactly when the addresses are independent. -/
theorem address_lists_pointwise_iff (state : NamedState) (outcome : CallOutcome) (negotiation : Negotiation)
    (addrs : List AddressMessage) :
    state.Pointwise outcome negotiation addrs ↔ state.Independent outcome addrs negotiation := by
  cases negotiation with
  | addOutputRts =>
    refine iff_of_true (fun key ↦ ?_) trivial
    exact congrFun (peer_skipRejected state addrs fun _ _ _ _ _ ↦ rfl) key
  | setMigrationTarget =>
    rw [Independent, ← peer_setMigrationTarget_iff]
    exact funext_iff.symm
  | addReplicas =>
    constructor
    · intro hpointwise key hmem hpasses config hanswer
      have hpeer := hpointwise key
      rw [expected, if_pos ⟨hmem, hpasses⟩, hanswer] at hpeer
      cases address_of_addReplicas hpeer with
      | inl hold =>
        rw [peer_eq_none hpasses] at hold
        cases hold
      | inr hkey => exact hkey.symm
    · intro hfiled key
      exact congrFun (peer_skipRejected state addrs hfiled) key

/-- The list names the runtime itself and then another one, which is not added. -/
theorem own_address_hinders_others :
    ∃ (state : NamedState) (outcome : CallOutcome) (key : List Char),
      (state.proceed outcome .setMigrationTarget
        [state.localRuntime.address.message, ⟨['a'], 1⟩]).peer .setMigrationTarget key = none ∧
      state.expected outcome .setMigrationTarget
        [state.localRuntime.address.message, ⟨['a'], 1⟩] key = some localConfig ∧
      ¬ state.Pointwise outcome .setMigrationTarget [state.localRuntime.address.message, ⟨['a'], 1⟩] := by
  let state := ofNeighbours localConfig [] []
  let outcome : CallOutcome := fun _ ↦ some localConfig
  have hnone : (state.proceed outcome .setMigrationTarget
      [state.localRuntime.address.message, ⟨['a'], 1⟩]).peer .setMigrationTarget ['a', ':', '1'] = none := by
    decide +kernel
  have hsome : state.expected outcome .setMigrationTarget
      [state.localRuntime.address.message, ⟨['a'], 1⟩] ['a', ':', '1'] = some localConfig := by
    decide +kernel
  refine ⟨state, outcome, _, hnone, hsome, fun hpointwise ↦ ?_⟩
  have hsame := hpointwise ['a', ':', '1']
  rw [hnone, hsome] at hsame
  cases hsame

end NamedState

namespace RpcState

theorem named_rejects (state : RpcState) (destAddr : Address) (negotiation : Negotiation) :
    state.named.rejects destAddr.text negotiation ↔ state.rejects destAddr negotiation := by
  have hmem (role : Role) : destAddr.text ∈ state.named.runtimes role ↔ destAddr ∈ state.runtimes role :=
    (state.runtimes role).text_mem_named destAddr
  have hlocal : destAddr.text = state.named.localAddr ↔ destAddr = state.localAddress :=
    Address.text_injective.eq_iff
  cases negotiation <;> simp only [NamedState.rejects, rejects, hmem, hlocal]

theorem named_record (state : RpcState) (negotiation : Negotiation) {destAddr : Address} {reply : Peer}
    {outcome : CallOutcome} (hanswer : outcome destAddr.text = some reply.val) :
    (state.record destAddr reply negotiation).1.named = state.named.call outcome negotiation destAddr.text := by
  rw [NamedState.call_of_some hanswer]
  cases negotiation <;> exact named_emplace ..

end RpcState

end NfvActor.Control
