import Mathlib.Tactic
import NfvActor.Foundation.CircularList

/-!
# Pointer maps with trusted nodes

A list head that is initialised a second time forgets its items, but the items still point at it, and its list
is no ring. A pointer to a trusted node, which is never initialised again, is still answered by a pointer back.
This keeps the ring of a trusted head intact while items of other lists come and go.
-/

namespace NfvActor.Foundation.Links

open Function

universe u

variable {ν : Type u}

/-- Every pointer to a trusted node is answered by its opposite pointer. -/
structure Answered (links : Links ν) (trusted : Set ν) : Prop where
  next : ∀ a, links.next a ∈ trusted → links.prev (links.next a) = a
  prev : ∀ a, links.prev a ∈ trusted → links.next (links.prev a) = a

namespace Answered

variable {links : Links ν} {trusted : Set ν} {head item node : ν}

theorem detached (trusted : Set ν) : (Links.detached : Links ν).Answered trusted :=
  ⟨fun _ _ ↦ rfl, fun _ _ ↦ rfl⟩

variable (h : links.Answered trusted)

include h

theorem prev_of_next {a b : ν} (hb : b ∈ trusted) (hnext : links.next a = b) : links.prev b = a := by
  subst hnext
  exact h.next a hb

theorem next_of_prev {a b : ν} (hb : b ∈ trusted) (hprev : links.prev a = b) : links.next b = a := by
  subst hprev
  exact h.prev a hb

theorem next_self_iff (hnode : node ∈ trusted) : links.next node = node ↔ links.prev node = node :=
  ⟨h.prev_of_next hnode, h.next_of_prev hnode⟩

omit h

section Operations

variable [DecidableEq ν]

variable (h : links.Answered trusted)

include h

theorem del (hitem : item ∈ trusted) : (links.del item).Answered trusted := by
  constructor
  · intro a ha
    rw [del_next] at ha ⊢
    rw [del_prev]
    by_cases hself : a = item
    · simp [hself]
    · by_cases hprev : a = links.prev item
      · have hne : links.next item ≠ item := by
          intro hnext
          exact hself (hprev.trans (h.prev_of_next hitem hnext))
        simp only [hprev, if_true]
        simp [← hprev, hself, hne]
      · simp only [hself, hprev, if_false] at ha ⊢
        have hitem' : links.next a ≠ item := by
          intro hnext
          exact hprev (h.prev_of_next hitem hnext).symm
        have hnext' : links.next a ≠ links.next item := by
          intro hnext
          have hback := h.next a ha
          rw [hnext] at ha hback
          exact hself (hback.symm.trans (h.next item ha))
        simp only [hitem', hnext', if_false]
        exact h.next a ha
  · intro a ha
    rw [del_prev] at ha ⊢
    rw [del_next]
    by_cases hself : a = item
    · simp [hself]
    · by_cases hnext : a = links.next item
      · have hne : links.prev item ≠ item := by
          intro hprev
          exact hself (hnext.trans (h.next_of_prev hitem hprev))
        simp only [hnext, if_true]
        simp [← hnext, hself, hne]
      · simp only [hself, hnext, if_false] at ha ⊢
        have hitem' : links.prev a ≠ item := by
          intro hprev
          exact hnext (h.next_of_prev hitem hprev).symm
        have hprev' : links.prev a ≠ links.prev item := by
          intro hprev
          have hback := h.prev a ha
          rw [hprev] at ha hback
          exact hself (hback.symm.trans (h.prev item ha))
        simp only [hitem', hprev', if_false]
        exact h.prev a ha

theorem addTail (hitem : item ∈ trusted) (hself : links.next item = item) (hhead : head ≠ item) :
    (links.addTail head item).Answered trusted := by
  have hprevSelf : links.prev item = item := h.prev_of_next hitem hself
  have hlast : links.prev head ≠ item := by
    intro hprev
    exact hhead ((h.next_of_prev hitem hprev).symm.trans hself)
  have hnextEq : ∀ n, (links.addTail head item).next n =
      if n = item then head else if n = links.prev head then item else links.next n := by
    intro n
    simp [Links.addTail, addBetween, update_apply]
  have hprevEq : ∀ n, (links.addTail head item).prev n =
      if n = head then item else if n = item then links.prev head else links.prev n := by
    intro n
    simp [Links.addTail, addBetween, update_apply]
  constructor
  · intro a ha
    rw [hnextEq] at ha ⊢
    rw [hprevEq]
    by_cases haitem : a = item
    · simp [haitem]
    · by_cases halast : a = links.prev head
      · simp [halast, hlast, Ne.symm hhead]
      · simp only [haitem, halast, if_false] at ha ⊢
        have hneItem : links.next a ≠ item := by
          intro hnext
          exact haitem ((h.prev_of_next hitem hnext).symm.trans hprevSelf)
        have hneHead : links.next a ≠ head := by
          intro hnext
          have hback := h.next a ha
          rw [hnext] at hback
          exact halast hback.symm
        simp only [hneItem, hneHead, if_false]
        exact h.next a ha
  · intro a ha
    rw [hprevEq] at ha ⊢
    rw [hnextEq]
    by_cases hahead : a = head
    · simp [hahead]
    · by_cases haitem : a = item
      · simp [haitem, hlast, Ne.symm hhead]
      · simp only [hahead, haitem, if_false] at ha ⊢
        have hneItem : links.prev a ≠ item := by
          intro hprev
          exact haitem ((h.next_of_prev hitem hprev).symm.trans hself)
        have hneLast : links.prev a ≠ links.prev head := by
          intro hprev
          have hback := h.prev a ha
          rw [hprev] at ha hback
          exact hahead (hback.symm.trans (h.prev head ha))
        simp only [hneItem, hneLast, if_false]
        exact h.prev a ha

/-- A trusted node that points at itself is not affected by another item that is added. -/
theorem next_addTail_of_self (hnode : node ∈ trusted) (hself : links.next node = node) (hitem : node ≠ item)
    (hhead : node ≠ head) : (links.addTail head item).next node = node := by
  have hlast : node ≠ links.prev head := by
    intro hprev
    exact hhead (hself.symm.trans (h.next_of_prev hnode hprev.symm))
  simp [Links.addTail, addBetween, hitem, hlast, hself]

theorem next_del_of_self (hnode : node ∈ trusted) (hself : links.next node = node) (hitem : node ≠ item) :
    (links.del item).next node = node := by
  have hprev : node ≠ links.prev item := by
    intro hprev
    exact hitem (hself.symm.trans (h.next_of_prev hnode hprev.symm))
  rw [del_next, if_neg hitem, if_neg hprev, hself]

theorem itemInit (hitem : item ∉ trusted) : (links.itemInit item).Answered trusted := by
  constructor
  · intro a ha
    simp only [Links.itemInit, update_apply] at ha ⊢
    split at ha
    · exact absurd ha hitem
    · next hne =>
      have hnext : links.next a ≠ item := by
        rintro heq
        exact hitem (heq ▸ ha)
      simp only [hne, hnext, if_false]
      exact h.next a ha
  · intro a ha
    simp only [Links.itemInit, update_apply] at ha ⊢
    split at ha
    · exact absurd ha hitem
    · next hne =>
      have hprev : links.prev a ≠ item := by
        rintro heq
        exact hitem (heq ▸ ha)
      simp only [hne, hprev, if_false]
      exact h.prev a ha

end Operations

end Answered

namespace IsRing

variable {links : Links ν} {trusted : Set ν} {head item node : ν} {items : List ν}

variable (h : links.IsRing head items)

include h

theorem next_mem_ring (hnode : node ∈ head :: items) : links.next node ∈ head :: items := by
  rcases List.mem_cons.1 hnode with rfl | hmem
  · exact next_head_mem h
  · obtain ⟨before, after, rfl⟩ := List.append_of_mem hmem
    have hnext := next_mem h
    simp only [List.mem_cons, List.mem_append] at hnext ⊢
    tauto

theorem prev_mem_ring (hnode : node ∈ head :: items) : links.prev node ∈ head :: items := by
  rcases List.mem_cons.1 hnode with rfl | hmem
  · exact prev_head_mem h
  · obtain ⟨before, after, rfl⟩ := List.append_of_mem hmem
    have hprev := prev_mem h
    simp only [List.mem_cons, List.mem_append] at hprev ⊢
    tauto

theorem next_ne_self (hnode : node ∈ items) : links.next node ≠ node := by
  obtain ⟨before, after, rfl⟩ := List.append_of_mem hnode
  intro hself
  have hnext := next_mem h
  have hnodup := h.nodup
  rw [hself] at hnext
  simp only [List.nodup_cons, List.mem_append, List.mem_cons, List.nodup_append] at hnext hnodup
  tauto

omit h

section Operations

variable [DecidableEq ν]

variable (h : links.IsRing head items)

include h

/-- Deleting an item of another list leaves the ring alone. -/
theorem del_other (hanswered : links.Answered trusted) (htrusted : ∀ node ∈ head :: items, node ∈ trusted)
    (hitem : item ∉ head :: items) : (links.del item).IsRing head items := by
  apply h.congr
  · intro node hnode
    have hself : node ≠ item := fun heq ↦ hitem (heq ▸ hnode)
    have hprev : node ≠ links.prev item := by
      intro heq
      have hnext := hanswered.next_of_prev (htrusted node hnode) heq.symm
      exact hitem (hnext ▸ h.next_mem_ring hnode)
    rw [del_next, if_neg hself, if_neg hprev]
  · intro node hnode
    have hself : node ≠ item := fun heq ↦ hitem (heq ▸ hnode)
    have hnext : node ≠ links.next item := by
      intro heq
      have hprev := hanswered.prev_of_next (htrusted node hnode) heq.symm
      exact hitem (hprev ▸ h.prev_mem_ring hnode)
    rw [del_prev, if_neg hself, if_neg hnext]

/-- Adding an item to another list leaves the ring alone. -/
theorem addTail_other (hanswered : links.Answered trusted) (htrusted : ∀ node ∈ head :: items, node ∈ trusted)
    {other : ν} (hother : other ∉ head :: items) (hitem : item ∉ head :: items) :
    (links.addTail other item).IsRing head items := by
  apply h.congr
  · intro node hnode
    have hself : node ≠ item := fun heq ↦ hitem (heq ▸ hnode)
    have hlast : node ≠ links.prev other := by
      intro heq
      have hnext := hanswered.next_of_prev (htrusted node hnode) heq.symm
      exact hother (hnext ▸ h.next_mem_ring hnode)
    simp [Links.addTail, addBetween, hself, hlast]
  · intro node hnode
    have hself : node ≠ item := fun heq ↦ hitem (heq ▸ hnode)
    have hhead : node ≠ other := fun heq ↦ hother (heq ▸ hnode)
    simp [Links.addTail, addBetween, hself, hhead]

theorem itemInit_other (hitem : item ∉ head :: items) : (links.itemInit item).IsRing head items := by
  apply h.congr
  · intro node hnode
    have hself : node ≠ item := fun heq ↦ hitem (heq ▸ hnode)
    simp [Links.itemInit, hself]
  · intro node hnode
    have hself : node ≠ item := fun heq ↦ hitem (heq ▸ hnode)
    simp [Links.itemInit, hself]

end Operations

end IsRing

end NfvActor.Foundation.Links
