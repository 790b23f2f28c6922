import Mathlib.Tactic
import NfvActor.Foundation.TrustedLinks
import NfvActor.Timers.Lists

/-!
# Expiry of the timers

`timeout_occur` looks at the first timer of a list only. All timers of a list are armed for the same time, so
the list stays sorted under a clock that does not go back, as long as the 64 bits of `to_time_` do not overflow.
The handlers behind `trigger_timer` are those of the flow actor, in any state of the runtime.
-/

namespace NfvActor.Actor

open NfvActor.Foundation
open Function

/-- A timer is armed with a message whose handler invalidates it. -/
def TimerCall.Matches : TimerCall → Prop
  | .add _ kind _ _ msgType => msgType.kind = kind
  | .invalidate _ _ => True

/-- A call of `trigger_timer`: the timer, the number of the arming and its `to_time_`. -/
structure Firing where
  list : TimerList
  timer : TimerNode
  arming : ℕ
  expiry : UInt64

/-- The timers, the pointers of the two lists, `to_time_` and the clock. `serial` counts the armings of a timer;
`fired` are the timers triggered, the last one first. -/
structure TimedLists where
  table : TimerTable
  links : Links TimerNode
  toTime : TimerNode → UInt64
  now : UInt64
  serial : TimerNode → ℕ
  fired : List Firing

/-- The calls on the timers in any order; `views` are the states in which handlers run. -/
inductive ListInput (σ τ : Type)
  | tick (now : UInt64)
  | call (call : TimerCall)
  | runTask (views : TimerList → ℕ → Runtime σ τ × Environment σ)

namespace TimedLists

variable {σ τ : Type} (toNs : TimerList → UInt64)

/-- `add_timer` and `invalidate`. -/
def perform (s : TimedLists) (call : TimerCall) : Option TimedLists :=
  (s.table.call call).map fun table ↦
    match call with
    | .add ptr kind list _ _ =>
      { s with
        table
        links := call.relink s.links
        toTime := update s.toTime (.timer ptr kind) (s.now + toNs list)
        serial := update s.serial (.timer ptr kind) (s.serial (.timer ptr kind) + 1) }
    | .invalidate _ _ => { s with table, links := call.relink s.links }

def performAll : List TimerCall → TimedLists → Option TimedLists
  | [], s => some s
  | call :: rest, s => (s.perform toNs call).bind (performAll rest)

def timeoutOccur (s : TimedLists) (list : TimerList) : Bool :=
  match s.links.peekFirst (.head list) with
  | none => false
  | some item => decide (s.toTime item < s.now)

def record (s : TimedLists) (list : TimerList) (timer : TimerNode) : TimedLists :=
  { s with fired := ⟨list, timer, s.serial timer, s.toTime timer⟩ :: s.fired }

/-- `trigger_timer` asserts that the first timer is armed and calls its handler. -/
def triggerTimer (s : TimedLists) (list : TimerList) (rt : Runtime σ τ) (env : Environment σ) :
    Option TimedLists :=
  match s.links.peekFirst (.head list) with
  | some (.timer ptr kind) =>
    if (s.table ptr kind).requestMsgId = invalidMessageId then none
    else
      performAll toNs (rt.timeoutCalls env ptr (s.table ptr kind).msgType) (s.record list (.timer ptr kind))
  | _ => none

/-- One of the two loops of `RunTask`. -/
def triggerLoop (list : TimerList) (views : ℕ → Runtime σ τ × Environment σ) : ℕ → TimedLists → Option TimedLists
  | 0, s => some s
  | turns + 1, s =>
    if s.timeoutOccur list then
      (s.triggerTimer toNs list (views turns).1 (views turns).2).bind (triggerLoop list views turns)
    else
      some s

def runTask (s : TimedLists) (views : TimerList → ℕ → Runtime σ τ × Environment σ) : Option TimedLists :=
  (triggerLoop toNs .idleFlows (views .idleFlows) Reliable.kMaxBurst s).bind
    (triggerLoop toNs .requests (views .requests) Reliable.kMaxBurst)

/-- A timer that is disarmed carries no request id and is in no list. -/
def Disarmed (s : TimedLists) (ptr : ℕ) (kind : TimerKind) : Prop :=
  (s.table ptr kind).requestMsgId = invalidMessageId ∧ s.links.next (.timer ptr kind) = .timer ptr kind

def system (σ τ : Type) : TransitionSystem TimedLists (ListInput σ τ) where
  init s := (∀ ptr kind, s.Disarmed ptr kind) ∧ s.links = .detached ∧ s.fired = []
  step s input :=
    match input with
    | .tick now => if s.now ≤ now then some { s with now } else none
    | .call call => s.perform toNs call
    | .runTask views => s.runTask toNs views

/-- `add_timer` is called on disarmed timers. -/
def Permitted (s : TimedLists) : ListInput σ τ → Prop
  | .call (.add ptr kind list requestMsgId msgType) =>
    (TimerCall.add ptr kind list requestMsgId msgType).Matches ∧ s.Disarmed ptr kind
  | _ => True

/-- The `to_time_` of a timer that is added now does not overflow. -/
def Fits (s : TimedLists) (list : TimerList) : Prop := s.now.toNat + (toNs list).toNat < 2 ^ 64

/-- What the step may add to a list fits. -/
def InTime (s : TimedLists) : ListInput σ τ → Prop
  | .call (.add _ _ list _ _) => s.Fits toNs list
  | .runTask _ => ∀ list, s.Fits toNs list
  | _ => True

/-- Lists are in the order of expiry, and later than all that have fired. -/
structure Ordered (s : TimedLists) (items : TimerList → List TimerNode) : Prop where
  rings : s.links.Rings .head items
  sorted : ∀ list, (items list).Pairwise fun earlier later ↦ (s.toTime earlier).toNat ≤ (s.toTime later).toNat
  bounded : ∀ list, ∀ node ∈ items list, (s.toTime node).toNat ≤ s.now.toNat + (toNs list).toNat
  matching : ∀ list ptr kind, .timer ptr kind ∈ items list → (s.table ptr kind).msgType.kind = kind
  past : ∀ firing ∈ s.fired, firing.expiry.toNat < s.now.toNat ∧ firing.arming ≤ s.serial firing.timer ∧
    (∀ node ∈ items firing.list, firing.expiry.toNat ≤ (s.toTime node).toNat) ∧
    ∀ list, firing.timer ∈ items list → firing.arming < s.serial firing.timer
  history : s.fired.Pairwise fun later earlier ↦
    (later.list = earlier.list → earlier.expiry.toNat ≤ later.expiry.toNat) ∧
      (later.timer = earlier.timer → later.arming ≠ earlier.arming)

/-- Nothing has expired since: an expired timer was so before, with the same request. -/
structure Wanes (s : TimedLists) (items : TimerList → List TimerNode) (s' : TimedLists)
    (items' : TimerList → List TimerNode) : Prop where
  now : s'.now = s.now
  old : ∀ list ptr kind, .timer ptr kind ∈ items' list → s'.toTime (.timer ptr kind) < s'.now →
    .timer ptr kind ∈ items list ∧ s.toTime (.timer ptr kind) < s.now ∧ s'.table ptr kind = s.table ptr kind

/-- The expired timers of a list are armed. -/
def ExpiredArmed (s : TimedLists) (items : TimerList → List TimerNode) (list : TimerList) : Prop :=
  ∀ ptr kind, .timer ptr kind ∈ items list → s.toTime (.timer ptr kind) < s.now → (s.table ptr kind).Armed

namespace Wanes

variable {s s' s'' : TimedLists} {items items' items'' : TimerList → List TimerNode}

theorem refl (s : TimedLists) (items : TimerList → List TimerNode) : s.Wanes items s items :=
  ⟨rfl, fun _ _ _ hmem hexpired ↦ ⟨hmem, hexpired, rfl⟩⟩

variable (h : s.Wanes items s' items')

include h

theorem trans (h' : s'.Wanes items' s'' items'') : s.Wanes items s'' items'' where
  now := h'.now.trans h.now
  old list ptr kind hmem hexpired := by
    obtain ⟨hmem', hexpired', htable'⟩ := h'.old list ptr kind hmem hexpired
    obtain ⟨hbefore, hlate, htable⟩ := h.old list ptr kind hmem' hexpired'
    exact ⟨hbefore, hlate, htable'.trans htable⟩

theorem fits (hfits : ∀ list, s.Fits toNs list) (list : TimerList) : s'.Fits toNs list := by
  rw [Fits, h.now]
  exact hfits list

theorem armed {list : TimerList} (harmed : s.ExpiredArmed items list) : s'.ExpiredArmed items' list := by
  intro ptr kind hmem hexpired
  obtain ⟨hold, hlate, htable⟩ := h.old list ptr kind hmem hexpired
  rw [htable]
  exact harmed ptr kind hold hlate

end Wanes

namespace Ordered

variable {toNs} {s s' : TimedLists} {items : TimerList → List TimerNode} {ptr : ℕ} {kind : TimerKind}
  {list : TimerList}

variable (h : s.Ordered toNs items)

include h

theorem not_mem_of_disarmed (hoff : s.Disarmed ptr kind) (list : TimerList) : .timer ptr kind ∉ items list :=
  fun hmem ↦ (h.rings.ring list).next_ne_self hmem hoff.2

theorem next_of_not_mem (hout : ∀ list, .timer ptr kind ∉ items list) :
    s.links.next (.timer ptr kind) = .timer ptr kind := by
  apply (h.rings.idle _ _).1
  intro list
  exact fun hmem ↦ (List.mem_cons.1 hmem).elim (by simp) (hout list)

theorem timer_of_mem {node : TimerNode} (hmem : node ∈ items list) : ∃ ptr kind, node = .timer ptr kind := by
  cases node with
  | timer ptr kind => exact ⟨ptr, kind, rfl⟩
  | head other =>
    have heq := h.rings.eq_of_mem (List.mem_cons_of_mem _ hmem) List.mem_cons_self
    rw [heq] at hmem
    exact absurd hmem (List.nodup_cons.1 (h.rings.ring other).nodup).1

theorem tick {now : UInt64} (hle : s.now.toNat ≤ now.toNat) : Ordered toNs { s with now } items where
  rings := h.rings
  sorted := h.sorted
  bounded list node hmem := (h.bounded list node hmem).trans (Nat.add_le_add_right hle _)
  matching := h.matching
  past firing hfiring := ⟨(h.past firing hfiring).1.trans_le hle, (h.past firing hfiring).2⟩
  history := h.history

theorem not_mem_erase (node : TimerNode) (list : TimerList) : node ∉ (items list).erase node :=
  List.Nodup.not_mem_erase (List.nodup_cons.1 (h.rings.ring list).nodup).2

/-- A timer leaves its list; the others stay in order. -/
theorem invalidate (ptr : ℕ) (kind : TimerKind) : Ordered toNs { s with
        table := s.table.set ptr kind (s.table ptr kind).invalidate
        links := s.links.del (.timer ptr kind) }
      fun list ↦ (items list).erase (.timer ptr kind) where
  rings := h.rings.del fun list ↦ by simp
  sorted list := (h.sorted list).sublist List.erase_sublist
  bounded list node hmem := h.bounded list node (List.mem_of_mem_erase hmem)
  matching list ptr' kind' hmem := by
    dsimp only
    rw [TimerTable.set_apply, if_neg]
    · exact h.matching list ptr' kind' (List.mem_of_mem_erase hmem)
    · rintro ⟨rfl, rfl⟩
      exact h.not_mem_erase _ list hmem
  past firing hfiring := by
    obtain ⟨hexpired, harming, hlater, hnew⟩ := h.past firing hfiring
    exact ⟨hexpired, harming, fun node hmem ↦ hlater node (List.mem_of_mem_erase hmem),
      fun list hmem ↦ hnew list (List.mem_of_mem_erase hmem)⟩
  history := h.history

theorem wanes_invalidate (ptr : ℕ) (kind : TimerKind) (fired : List Firing) : s.Wanes items { s with
        table := s.table.set ptr kind (s.table ptr kind).invalidate
        links := s.links.del (.timer ptr kind)
        fired } fun list ↦ (items list).erase (.timer ptr kind) where
  now := rfl
  old list ptr' kind' hmem hexpired := by
    refine ⟨List.mem_of_mem_erase hmem, hexpired, ?_⟩
    dsimp only
    rw [TimerTable.set_apply, if_neg]
    rintro ⟨rfl, rfl⟩
    exact h.not_mem_erase _ list hmem

omit h in
theorem mem_added {timer node : TimerNode} {other : TimerList}
    (hmem : node ∈ update items list (items list ++ [timer]) other) :
    node ∈ items other ∨ node = timer ∧ other = list := by
  by_cases hother : other = list
  · subst hother
    rw [update_self, List.mem_append, List.mem_singleton] at hmem
    exact hmem.imp_right fun heq ↦ ⟨heq, rfl⟩
  · rw [update_of_ne hother] at hmem
    exact .inl hmem

omit h in
theorem toNat_expiry (hfits : s.Fits toNs list) :
    (s.now + toNs list).toNat = s.now.toNat + (toNs list).toNat := by
  rw [UInt64.toNat_add, Nat.mod_eq_of_lt hfits]

omit h in
theorem wanes_add (hfits : s.Fits toNs list) (timer : ActorTimer) (serial : TimerNode → ℕ) :
    s.Wanes items { s with
        table := s.table.set ptr kind timer
        links := s.links.addTail (.head list) (.timer ptr kind)
        toTime := update s.toTime (.timer ptr kind) (s.now + toNs list)
        serial } (update items list (items list ++ [.timer ptr kind])) where
  now := rfl
  old other ptr' kind' hmem hexpired := by
    dsimp only at hexpired ⊢
    by_cases heq : TimerNode.timer ptr' kind' = .timer ptr kind
    · rw [heq, update_self, UInt64.lt_iff_toNat_lt, toNat_expiry hfits] at hexpired
      omega
    · rw [update_of_ne heq] at hexpired
      rw [TimerTable.set_apply, if_neg fun hsame ↦ heq (by rw [hsame.1, hsame.2])]
      exact ⟨(mem_added hmem).resolve_right fun hnew ↦ heq hnew.1, hexpired, rfl⟩

/-- A timer that is armed now expires after all timers of its list. -/
theorem add (hout : ∀ list, .timer ptr kind ∉ items list) (hfits : s.Fits toNs list) (requestMsgId : UInt32)
    {msgType : TimerMessage} (hkind : msgType.kind = kind) :
    Ordered toNs { s with
        table := s.table.set ptr kind ⟨requestMsgId, msgType⟩
        links := s.links.addTail (.head list) (.timer ptr kind)
        toTime := update s.toTime (.timer ptr kind) (s.now + toNs list)
        serial := update s.serial (.timer ptr kind) (s.serial (.timer ptr kind) + 1) }
      (update items list (items list ++ [.timer ptr kind])) := by
  have hkeep : ∀ {node other}, node ∈ items other →
      update s.toTime (.timer ptr kind) (s.now + toNs list) node = s.toTime node := by
    intro node other hmem
    apply update_of_ne
    rintro rfl
    exact hout other hmem
  constructor
  · apply h.rings.addTail
    intro other hmem
    exact (List.mem_cons.1 hmem).elim (by simp) (hout other)
  · intro other
    dsimp only
    have hold : (items other).Pairwise fun earlier later ↦
        (update s.toTime (.timer ptr kind) (s.now + toNs list) earlier).toNat ≤
          (update s.toTime (.timer ptr kind) (s.now + toNs list) later).toNat := by
      apply (h.sorted other).imp_of_mem
      intro earlier later hearlier hlater hle
      rw [hkeep hearlier, hkeep hlater]
      exact hle
    by_cases hother : other = list
    · subst hother
      rw [update_self, List.pairwise_append]
      refine ⟨hold, List.pairwise_singleton _ _, ?_⟩
      intro earlier hearlier later hlater
      rw [List.mem_singleton.1 hlater, update_self, hkeep hearlier, toNat_expiry hfits]
      exact h.bounded other earlier hearlier
    · rw [update_of_ne hother]
      exact hold
  · intro other node hmem
    dsimp only
    rcases mem_added hmem with hold | ⟨rfl, rfl⟩
    · rw [hkeep hold]
      exact h.bounded other node hold
    · rw [update_self, toNat_expiry hfits]
  · intro other ptr' kind' hmem
    dsimp only
    rw [TimerTable.set_apply]
    split
    · next heq => rw [heq.2, hkind]
    · next hne =>
      rcases mem_added hmem with hold | ⟨heq, -⟩
      · exact h.matching other ptr' kind' hold
      · exact absurd (TimerNode.timer.inj heq) hne
  · intro firing hfiring
    obtain ⟨hexpired, harming, hlater, hnew⟩ := h.past firing hfiring
    dsimp only
    refine ⟨hexpired, ?_, fun node hmem ↦ ?_, fun other hmem ↦ ?_⟩
    · rw [update_apply]
      split
      · next heq =>
        rw [heq] at harming
        omega
      · exact harming
    · rcases mem_added hmem with hold | ⟨rfl, -⟩
      · rw [hkeep hold]
        exact hlater node hold
      · rw [update_self, toNat_expiry hfits]
        omega
    · rw [update_apply]
      split
      · next heq =>
        rw [heq] at harming
        omega
      · next hne =>
        rcases mem_added hmem with hold | ⟨heq, -⟩
        · exact hnew other hold
        · exact absurd heq hne
  · exact h.history

/-- The first timer of a list fires and leaves it. -/
theorem fire {rest : List TimerNode} (hfirst : items list = .timer ptr kind :: rest)
    (hexpired : (s.toTime (.timer ptr kind)).toNat < s.now.toNat) :
    Ordered toNs { s with
        table := s.table.set ptr kind (s.table ptr kind).invalidate
        links := s.links.del (.timer ptr kind)
        fired := ⟨list, .timer ptr kind, s.serial (.timer ptr kind), s.toTime (.timer ptr kind)⟩ :: s.fired }
      fun list ↦ (items list).erase (.timer ptr kind) := by
  have hafter := h.invalidate ptr kind
  have hmem : .timer ptr kind ∈ items list := hfirst ▸ List.mem_cons_self
  refine ⟨hafter.rings, hafter.sorted, hafter.bounded, hafter.matching, ?_, ?_⟩
  · apply List.forall_mem_cons.2 ⟨⟨hexpired, le_rfl, ?_, ?_⟩, hafter.past⟩
    · intro node hnode
      dsimp only at hnode
      rw [hfirst, List.erase_cons_head] at hnode
      have hsorted := h.sorted list
      rw [hfirst] at hsorted
      exact (List.pairwise_cons.1 hsorted).1 node hnode
    · intro other hother
      exact absurd hother (h.not_mem_erase _ other)
  · apply List.pairwise_cons.2 ⟨?_, h.history⟩
    intro earlier hearlier
    obtain ⟨-, -, hlater, hnew⟩ := h.past earlier hearlier
    constructor
    · intro hlist
      dsimp only at hlist
      subst hlist
      exact hlater _ hmem
    · intro htimer
      dsimp only at htimer
      rw [← htimer] at hnew
      exact (hnew list hmem).ne'

theorem performAll {calls : List TimerCall} (hcalls : ∀ call ∈ calls, ∃ ptr kind, call = .invalidate ptr kind) :
    ∃ s' items', TimedLists.performAll toNs calls s = some s' ∧ s'.Ordered toNs items' ∧
      s.Wanes items s' items' ∧ s'.serial = s.serial ∧ s'.fired = s.fired ∧
      ∀ ptr kind, s.Disarmed ptr kind → s'.Disarmed ptr kind := by
  induction calls generalizing s items with
  | nil =>
    exact ⟨s, items, rfl, h, .refl s items, rfl, rfl, fun _ _ hoff ↦ hoff⟩
  | cons call _ ih =>
    obtain ⟨ptr, kind, rfl⟩ := hcalls call List.mem_cons_self
    have hafter := h.invalidate ptr kind
    obtain ⟨s', items', hrun, hordered, hwanes, hserial, hfired, hoff⟩ :=
      ih hafter fun call hmem ↦ hcalls call (List.mem_cons_of_mem _ hmem)
    refine ⟨s', items', hrun, hordered, (h.wanes_invalidate ptr kind _).trans hwanes, hserial, hfired,
      fun ptr' kind' hbefore ↦ hoff ptr' kind' ⟨?_, ?_⟩⟩
    · dsimp only
      rw [TimerTable.set_apply]
      split
      · rfl
      · exact hbefore.1
    · apply hafter.next_of_not_mem
      exact fun list hmem ↦ h.not_mem_of_disarmed hbefore list (List.mem_of_mem_erase hmem)

end Ordered

/-! ## The handlers -/

/-- A handler first invalidates its timer. It may arm it again, and no other. -/
theorem timeoutCalls_cases (rt : Runtime σ τ) (env : Environment σ) (ptr : ℕ) (msgType : TimerMessage) :
    (∃ rest, rt.timeoutCalls env ptr msgType = .invalidate ptr msgType.kind :: rest ∧
      ∀ call ∈ rest, ∃ ptr kind, call = .invalidate ptr kind) ∨
    ∃ list requestMsgId next, next.kind = msgType.kind ∧ rt.timeoutCalls env ptr msgType =
      [.invalidate ptr msgType.kind, .add ptr msgType.kind list requestMsgId next] := by
  have hnone : ∀ call ∈ ([] : List TimerCall), ∃ ptr kind, call = .invalidate ptr kind := by simp
  cases msgType with
  | checkIdle =>
    rw [Runtime.timeoutCalls]
    split
    · refine .inl ⟨_, rfl, fun call hmem ↦ ?_⟩
      rw [Runtime.removeCalls] at hmem
      split at hmem
      · exact absurd hmem List.not_mem_nil
      · simp only [List.mem_cons, List.not_mem_nil, or_false] at hmem
        rcases hmem with rfl | rfl | rfl <;> exact ⟨ptr, _, rfl⟩
    · exact .inr ⟨_, _, _, rfl, rfl⟩
  | startMigrationTimeout => exact .inl ⟨[], rfl, hnone⟩
  | changeVswitchRouteTimeout | replicaRecoverTimeout =>
    rw [Runtime.timeoutCalls]
    split
    · exact .inr ⟨_, _, _, rfl, rfl⟩
    · exact .inl ⟨[], rfl, hnone⟩
  | migrateFlowStateTimeout => exact .inr ⟨_, _, .changeVswitchRouteTimeout, rfl, rfl⟩

/-- A timer has been disarmed, or armed once more with a later expiry. -/
def Rearms (s s' : TimedLists) (ptr : ℕ) (kind : TimerKind) : Prop :=
  s'.Disarmed ptr kind ∧ s'.serial (.timer ptr kind) = s.serial (.timer ptr kind) ∨
    s'.serial (.timer ptr kind) = s.serial (.timer ptr kind) + 1 ∧
      s.toTime (.timer ptr kind) < s'.toTime (.timer ptr kind)

/-- `RunTask` has triggered expired timers, from each list until it had no more or as many as one call can. -/
def Served (s s' : TimedLists) : Prop :=
  ∃ triggered, s'.fired = triggered ++ s.fired ∧ (∀ firing ∈ triggered, firing.expiry < s.now) ∧
    ∀ list, s'.timeoutOccur list = false ∨
      triggered.countP (fun firing ↦ decide (firing.list = list)) = Reliable.kMaxBurst

variable {toNs} {s s' : TimedLists} {items items' : TimerList → List TimerNode} {list : TimerList}
  {rt : Runtime σ τ} {env : Environment σ}

variable (h : s.Ordered toNs items)

include h

theorem Ordered.timeoutOccur_iff (list : TimerList) :
    s.timeoutOccur list = true ↔ ∃ node ∈ items list, s.toTime node < s.now := by
  unfold timeoutOccur
  rw [Links.peekFirst_eq (h.rings.ring list)]
  cases hitems : items list with
  | nil => simp
  | cons first =>
    have hsorted := h.sorted list
    rw [hitems] at hsorted
    rw [List.head?_cons, decide_eq_true_eq]
    constructor
    · exact fun hexpired ↦ ⟨first, List.mem_cons_self, hexpired⟩
    · rintro ⟨node, hmem, hexpired⟩
      rcases List.mem_cons.1 hmem with rfl | hrest
      · exact hexpired
      · exact UInt64.lt_of_le_of_lt ((List.pairwise_cons.1 hsorted).1 node hrest) hexpired

/-- A list without expired timers keeps none. -/
theorem Ordered.quiet (h' : s'.Ordered toNs items') (hwanes : s.Wanes items s' items')
    (hquiet : s.timeoutOccur list = false) : s'.timeoutOccur list = false := by
  rw [Bool.eq_false_iff] at hquiet ⊢
  intro hoccur
  obtain ⟨node, hmem, hexpired⟩ := (h'.timeoutOccur_iff list).1 hoccur
  obtain ⟨ptr, kind, rfl⟩ := h'.timer_of_mem hmem
  obtain ⟨hold, hlate, -⟩ := hwanes.old list ptr kind hmem hexpired
  exact hquiet ((h.timeoutOccur_iff list).2 ⟨_, hold, hlate⟩)

/-- A list with an expired timer starts with one. -/
theorem Ordered.exists_first (hoccur : s.timeoutOccur list = true) : ∃ ptr kind rest,
    items list = .timer ptr kind :: rest ∧ s.links.peekFirst (.head list) = some (.timer ptr kind) ∧
      s.toTime (.timer ptr kind) < s.now := by
  have hpeek := Links.peekFirst_eq (h.rings.ring list)
  cases hitems : items list with
  | nil =>
    obtain ⟨node, hmem, -⟩ := (h.timeoutOccur_iff list).1 hoccur
    rw [hitems] at hmem
    exact absurd hmem List.not_mem_nil
  | cons _ rest =>
    obtain ⟨ptr, kind, rfl⟩ := h.timer_of_mem (hitems ▸ List.mem_cons_self)
    rw [hitems, List.head?_cons] at hpeek
    rw [timeoutOccur, hpeek] at hoccur
    exact ⟨ptr, kind, rest, rfl, hpeek, of_decide_eq_true hoccur⟩

/-- The handler of a first timer that has expired disarms it, or arms it again for later. -/
theorem Ordered.handler {ptr : ℕ} {kind : TimerKind} {rest : List TimerNode} (hfits : ∀ list, s.Fits toNs list)
    (hitems : items list = .timer ptr kind :: rest) (hexpired : s.toTime (.timer ptr kind) < s.now)
    (rt : Runtime σ τ) (env : Environment σ) :
    ∃ s' items', TimedLists.performAll toNs (rt.timeoutCalls env ptr (s.table ptr kind).msgType)
        (s.record list (.timer ptr kind)) = some s' ∧
      s'.Ordered toNs items' ∧ s.Rearms s' ptr kind ∧ s.Wanes items s' items' ∧
      s'.fired = ⟨list, .timer ptr kind, s.serial (.timer ptr kind), s.toTime (.timer ptr kind)⟩ :: s.fired := by
  have hfired := h.fire hitems hexpired
  have hkind := h.matching list ptr kind (hitems ▸ List.mem_cons_self)
  have hout := fun list ↦ h.not_mem_erase (.timer ptr kind) list
  have hoff : (s.table.set ptr kind (s.table ptr kind).invalidate ptr kind).requestMsgId =
      invalidMessageId := by
    rw [TimerTable.set_apply, if_pos ⟨rfl, rfl⟩]
    rfl
  have hwanes := h.wanes_invalidate ptr kind (s.record list (.timer ptr kind)).fired
  rcases timeoutCalls_cases rt env ptr (s.table ptr kind).msgType with
    ⟨rest, hcalls, hrest⟩ | ⟨next, requestMsgId, msgType, hnext, hcalls⟩
  · rw [hcalls, hkind]
    obtain ⟨s', items', hrun, hordered, hrest, hserial, hlog, hstays⟩ := hfired.performAll hrest
    exact ⟨s', items', hrun, hordered,
      .inl ⟨hstays ptr kind ⟨hoff, hfired.next_of_not_mem hout⟩, congrFun hserial _⟩, hwanes.trans hrest, hlog⟩
  · have hadded := hfired.add hout (hfits next) requestMsgId (hnext.trans hkind)
    have hcall : (s.table.set ptr kind (s.table ptr kind).invalidate).call
        (.add ptr kind next requestMsgId msgType) = some _ := if_pos hoff
    simp only [hcalls, hkind, TimedLists.performAll, perform, Option.bind_map]
    rw [TimerTable.call, Option.bind_some]
    dsimp only [Function.comp_apply, record]
    rw [hcall]
    refine ⟨_, _, rfl, hadded, .inr ⟨?_, ?_⟩, hwanes.trans (wanes_add (hwanes.fits toNs hfits next) _ _), rfl⟩
    · exact update_self (TimerNode.timer ptr kind) _ _
    · dsimp only
      rw [update_self, UInt64.lt_iff_toNat_lt, toNat_expiry (hfits next)]
      exact hexpired.trans_le (Nat.le_add_right _ _)

/-- The handler of the first timer runs unless the timer carries no request id. -/
theorem Ordered.triggerTimer (hfits : ∀ list, s.Fits toNs list) (hoccur : s.timeoutOccur list = true)
    (rt : Runtime σ τ) (env : Environment σ) :
    ∃ ptr kind, s.links.peekFirst (.head list) = some (.timer ptr kind) ∧ .timer ptr kind ∈ items list ∧
      s.toTime (.timer ptr kind) < s.now ∧
      (¬(s.table ptr kind).Armed → s.triggerTimer toNs list rt env = none) ∧
      ((s.table ptr kind).Armed → ∃ s' items', s.triggerTimer toNs list rt env = some s' ∧
        s'.Ordered toNs items' ∧ s.Rearms s' ptr kind ∧ s.Wanes items s' items' ∧
        s'.fired = ⟨list, .timer ptr kind, s.serial (.timer ptr kind), s.toTime (.timer ptr kind)⟩ :: s.fired) := by
  obtain ⟨ptr, kind, rest, hitems, hpeek, hexpired⟩ := h.exists_first hoccur
  refine ⟨ptr, kind, hpeek, hitems ▸ List.mem_cons_self, hexpired, fun hunarmed ↦ ?_, fun harmed ↦ ?_⟩
  · rw [TimedLists.triggerTimer, hpeek]
    exact if_pos (not_not.1 hunarmed)
  · have htrigger : s.triggerTimer toNs list rt env = TimedLists.performAll toNs
        (rt.timeoutCalls env ptr (s.table ptr kind).msgType) (s.record list (.timer ptr kind)) := by
      rw [TimedLists.triggerTimer, hpeek]
      exact if_neg harmed
    rw [htrigger]
    exact h.handler hfits hitems hexpired rt env

/-- A loop runs to its end if the expired timers are armed. -/
theorem Ordered.triggerLoop (hfits : ∀ list, s.Fits toNs list) (list : TimerList)
    (views : ℕ → Runtime σ τ × Environment σ) (turns : ℕ) :
    (s.ExpiredArmed items list → ∃ s', TimedLists.triggerLoop toNs list views turns s = some s') ∧
    ∀ s', TimedLists.triggerLoop toNs list views turns s = some s' → ∃ items' triggered,
      s'.Ordered toNs items' ∧ s.Wanes items s' items' ∧ s'.fired = triggered ++ s.fired ∧
      (∀ firing ∈ triggered, firing.list = list ∧ firing.expiry < s.now) ∧
      (s'.timeoutOccur list = false ∨ triggered.length = turns) := by
  induction turns generalizing s items with
  | zero =>
    refine ⟨fun _ ↦ ⟨s, rfl⟩, fun s' hloop ↦ ?_⟩
    cases hloop
    exact ⟨items, [], h, .refl s items, rfl, by simp, .inr rfl⟩
  | succ turns ih =>
    simp only [TimedLists.triggerLoop]
    split
    · next hoccur =>
      obtain ⟨ptr, kind, -, hmem, hexpired, hunarmed, harmed⟩ :=
        h.triggerTimer hfits hoccur (views turns).1 (views turns).2
      by_cases hon : (s.table ptr kind).Armed
      · obtain ⟨mid, items', htrigger, hordered, -, hwanes, hfired⟩ := harmed hon
        obtain ⟨htotal, hspec⟩ := ih hordered (hwanes.fits toNs hfits)
        rw [htrigger, Option.bind_some]
        refine ⟨fun harmed ↦ htotal (hwanes.armed harmed), fun s' hloop ↦ ?_⟩
        obtain ⟨last, triggered, hlast, hlater, hlog, hall, hend⟩ := hspec s' hloop
        refine ⟨last, triggered ++ [_], hlast, hwanes.trans hlater, by rw [hlog, hfired, List.append_cons], ?_,
          hend.imp_right fun hlength ↦ by rw [List.length_append, hlength]; rfl⟩
        intro firing hfiring
        rcases List.mem_append.1 hfiring with hnew | hfirst
        · rw [← hwanes.now]
          exact hall firing hnew
        · rw [List.mem_singleton.1 hfirst]
          exact ⟨rfl, hexpired⟩
      · rw [hunarmed hon]
        exact ⟨fun harmed ↦ absurd (harmed ptr kind hmem hexpired) hon, fun s' hloop ↦ by cases hloop⟩
    · next hquiet =>
      refine ⟨fun _ ↦ ⟨s, rfl⟩, fun s' hloop ↦ ?_⟩
      cases hloop
      exact ⟨items, [], h, .refl s items, rfl, by simp, .inl (Bool.eq_false_iff.2 hquiet)⟩

omit h in
/-- The timers that the two loops have triggered, counted by list. -/
theorem countP_triggered {first second : List Firing} {list other : TimerList}
    (hfirst : ∀ firing ∈ first, firing.list = list) (hsecond : ∀ firing ∈ second, firing.list = other)
    (hne : other ≠ list) : (second ++ first).countP (fun firing ↦ decide (firing.list = list)) = first.length ∧
      (second ++ first).countP (fun firing ↦ decide (firing.list = other)) = second.length := by
  rw [List.countP_append, List.countP_append]
  constructor
  · rw [List.countP_eq_length.2 fun firing hmem ↦ decide_eq_true (hfirst firing hmem),
      List.countP_eq_zero.2 fun firing hmem ↦ by simp [hsecond firing hmem, hne], Nat.zero_add]
  · rw [List.countP_eq_length.2 fun firing hmem ↦ decide_eq_true (hsecond firing hmem),
      List.countP_eq_zero.2 fun firing hmem ↦ by simp [hfirst firing hmem, hne.symm], Nat.add_zero]

/-- `RunTask` serves both lists if the expired timers are armed. -/
theorem Ordered.runTask (hfits : ∀ list, s.Fits toNs list) (views : TimerList → ℕ → Runtime σ τ × Environment σ) :
    ((∀ list, s.ExpiredArmed items list) → ∃ s', s.runTask toNs views = some s') ∧
    ∀ s', s.runTask toNs views = some s' → (∃ items', s'.Ordered toNs items') ∧ s.Served s' := by
  obtain ⟨htotal, hspec⟩ := h.triggerLoop hfits .idleFlows (views .idleFlows) Reliable.kMaxBurst
  constructor
  · intro harmed
    obtain ⟨mid, hmid⟩ := htotal (harmed .idleFlows)
    obtain ⟨items', -, hordered, hwanes, -⟩ := hspec mid hmid
    obtain ⟨s', hs'⟩ := (hordered.triggerLoop (hwanes.fits toNs hfits) .requests (views .requests)
      Reliable.kMaxBurst).1 (hwanes.armed (harmed .requests))
    exact ⟨s', Option.bind_eq_some_iff.2 ⟨mid, hmid, hs'⟩⟩
  · intro s' hrun
    obtain ⟨mid, hmid, hs'⟩ := Option.bind_eq_some_iff.1 hrun
    obtain ⟨items', idle, hordered, hwanes, hidle, hidles, hend⟩ := hspec mid hmid
    obtain ⟨items'', requests, hordered', hwanes', hrequest, hrequests, hend'⟩ :=
      (hordered.triggerLoop (hwanes.fits toNs hfits) .requests (views .requests) Reliable.kMaxBurst).2 s' hs'
    obtain ⟨hcount, hcount'⟩ := countP_triggered (fun firing hmem ↦ (hidles firing hmem).1)
      (fun firing hmem ↦ (hrequests firing hmem).1) (by decide)
    refine ⟨⟨items'', hordered'⟩, requests ++ idle, by rw [hrequest, hidle, List.append_assoc], ?_, ?_⟩
    · intro firing hmem
      rcases List.mem_append.1 hmem with hmem | hmem
      · rw [← hwanes.now]
        exact (hrequests firing hmem).2
      · exact (hidles firing hmem).2
    · intro list
      cases list with
      | idleFlows => exact hend.imp (hordered.quiet hordered' hwanes') hcount.trans
      | requests => exact hend'.imp_right hcount'.trans

theorem Ordered.step {input : ListInput σ τ} (hpermitted : s.Permitted input) (hintime : s.InTime toNs input)
    (hstep : (system toNs σ τ).step s input = some s') : ∃ items', s'.Ordered toNs items' := by
  cases input with
  | tick now =>
    simp only [system, Option.ite_none_right_eq_some, Option.some.injEq] at hstep
    obtain ⟨hle, rfl⟩ := hstep
    exact ⟨items, h.tick hle⟩
  | call call =>
    obtain ⟨table, hcall, htable⟩ := Option.map_eq_some_iff.1 hstep
    cases htable
    cases call with
    | add _ _ _ requestMsgId =>
      rw [TimerTable.call, if_pos hpermitted.2.1] at hcall
      cases hcall
      exact ⟨_, h.add (h.not_mem_of_disarmed hpermitted.2) hintime requestMsgId hpermitted.1⟩
    | invalidate ptr kind =>
      cases hcall
      exact ⟨_, h.invalidate ptr kind⟩
  | runTask views => exact ((h.runTask hintime views).2 s' hstep).1

omit h

theorem Ordered.init (hinit : (system toNs σ τ).init s) : s.Ordered toNs fun _ ↦ [] where
  rings := by
    rw [hinit.2.1]
    apply Links.Rings.detached
    intro list list' heq
    exact TimerNode.head.inj heq
  sorted _ := List.Pairwise.nil
  bounded _ _ hmem := absurd hmem List.not_mem_nil
  matching _ _ _ hmem := absurd hmem List.not_mem_nil
  past firing hfiring := by
    rw [hinit.2.2] at hfiring
    exact absurd hfiring List.not_mem_nil
  history := hinit.2.2 ▸ List.Pairwise.nil

end TimedLists

end NfvActor.Actor
