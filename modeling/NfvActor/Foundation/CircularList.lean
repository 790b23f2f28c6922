import Mathlib.Tactic

/-!
# Intrusive circular doubly linked lists

List heads and items are nodes of one pointer map, which is all that the operations see: nothing stops a caller
from linking an item twice. `IsRing` says that the pointers through a head form a circle with given distinct
items, and `Rings` says it of a family of disjoint lists in which every other node points at itself.
-/

namespace NfvActor.Foundation

open Function

universe u v

/-- Successor and predecessor pointers of every node. -/
structure Links (ν : Type u) where
  next : ν → ν
  prev : ν → ν

namespace Links

variable {ν : Type u}

/-- Every node points at itself. -/
def detached : Links ν where
  next := id
  prev := id

section Operations

variable [DecidableEq ν]

def itemInit (links : Links ν) (item : ν) : Links ν where
  next := update links.next item item
  prev := update links.prev item item

def addBetween (links : Links ν) (prev next item : ν) : Links ν where
  next := update (update links.next prev item) item next
  prev := update (update links.prev item prev) next item

def addHead (links : Links ν) (head item : ν) : Links ν :=
  links.addBetween head (links.next head) item

def addTail (links : Links ν) (head item : ν) : Links ν :=
  links.addBetween (links.prev head) head item

def unlink (links : Links ν) (item : ν) : Links ν where
  next := update links.next (links.prev item) (links.next item)
  prev := update links.prev (links.next item) (links.prev item)

def del (links : Links ν) (item : ν) : Links ν :=
  (links.unlink item).itemInit item

def isEmpty (links : Links ν) (head : ν) : Bool := links.next head = head

def isSingle (links : Links ν) (head : ν) : Bool :=
  !links.isEmpty head && links.next head = links.prev head

def peekFirst (links : Links ν) (head : ν) : Option ν :=
  if links.isEmpty head then none else some (links.next head)

def peekLast (links : Links ν) (head : ν) : Option ν :=
  if links.isEmpty head then none else some (links.prev head)

def popHead (links : Links ν) (head : ν) : Option ν × Links ν :=
  if links.isEmpty head then (none, links)
  else (some (links.next head), links.del (links.next head))

/-- The first item becomes the last one and is returned. -/
def rotateLeft (links : Links ν) (head : ν) : Option ν × Links ν :=
  if links.isEmpty head then (none, links)
  else if links.isSingle head then (some (links.next head), links)
  else
    let first := links.next head
    let second := links.next first
    let last := links.prev head
    (some first,
      { next := update (update (update links.next head second)
          first head) last first
        prev := update (update (update links.prev second head)
          head first) first last })

end Operations

def Adjacent (links : Links ν) (a b : ν) : Prop := links.next a = b ∧ links.prev b = a

/-- The pointers lead from `a` through the listed nodes to `b`, and back. -/
def Path (links : Links ν) : ν → List ν → ν → Prop
  | a, [], b => links.Adjacent a b
  | a, x :: xs, b => links.Adjacent a x ∧ links.Path x xs b

/-- The list with this head holds exactly these items, in this order. -/
structure IsRing (links : Links ν) (head : ν) (items : List ν) : Prop where
  nodup : (head :: items).Nodup
  path : links.Path head items head

instance Adjacent.decidable [DecidableEq ν] (links : Links ν) (a b : ν) :
    Decidable (links.Adjacent a b) := inferInstanceAs (Decidable (_ ∧ _))

instance Path.decidable [DecidableEq ν] (links : Links ν) :
    ∀ (a : ν) (xs : List ν) (b : ν), Decidable (links.Path a xs b)
  | a, [], b => Adjacent.decidable links a b
  | a, x :: xs, b =>
    have := Path.decidable links x xs b
    inferInstanceAs (Decidable (links.Adjacent a x ∧ links.Path x xs b))

theorem isRing_iff (links : Links ν) (head : ν) (items : List ν) :
    links.IsRing head items ↔ (head :: items).Nodup ∧ links.Path head items head :=
  ⟨fun h ↦ ⟨h.nodup, h.path⟩, fun h ↦ ⟨h.1, h.2⟩⟩

instance IsRing.decidable [DecidableEq ν] (links : Links ν) (head : ν) (items : List ν) :
    Decidable (links.IsRing head items) := decidable_of_iff' _ (isRing_iff links head items)

theorem path_append (links : Links ν) (a b y : ν) (xs ys : List ν) :
    links.Path a (xs ++ y :: ys) b ↔ links.Path a xs y ∧ links.Path y ys b := by
  induction xs generalizing a with
  | nil => simp [Path]
  | cons _ _ ih => simp [Path, ih, and_assoc]

variable {links : Links ν} {head : ν} {items : List ν}

/-- A path reads `next` at its sources and `prev` at its targets only. -/
theorem Path.congr {links' : Links ν} {a b : ν} {xs : List ν} (hpath : links.Path a xs b)
    (hnext : ∀ n ∈ a :: xs, links'.next n = links.next n)
    (hprev : ∀ n ∈ b :: xs, links'.prev n = links.prev n) : links'.Path a xs b := by
  induction xs generalizing a with
  | nil =>
    have hn := hnext a (by simp)
    have hp := hprev b (by simp)
    exact ⟨hn.trans hpath.1, hp.trans hpath.2⟩
  | cons x _ ih =>
    obtain ⟨⟨hstepNext, hstepPrev⟩, hrest⟩ := hpath
    refine ⟨⟨(hnext a (by simp)).trans hstepNext, (hprev x (by simp)).trans hstepPrev⟩, ?_⟩
    apply ih hrest
    · intro n hn
      exact hnext n (List.mem_cons_of_mem _ hn)
    · intro n hn
      apply hprev n
      simp only [List.mem_cons] at hn ⊢
      tauto

theorem IsRing.congr {links' : Links ν} (hring : links.IsRing head items)
    (hnext : ∀ n ∈ head :: items, links'.next n = links.next n)
    (hprev : ∀ n ∈ head :: items, links'.prev n = links.prev n) : links'.IsRing head items :=
  ⟨hring.nodup, hring.path.congr hnext hprev⟩

theorem prev_head {y : ν} {ys : List ν} (hring : links.IsRing head (ys ++ [y])) : links.prev head = y :=
  ((path_append links head head y ys []).1 hring.path).2.2

theorem prev_mem {x : ν} {before after : List ν} (hring : links.IsRing head (before ++ x :: after)) :
    links.prev x ∈ head :: before := by
  obtain ⟨hpre, -⟩ := (path_append links head head x before after).1 hring.path
  rcases List.eq_nil_or_concat before with rfl | ⟨qs, p, rfl⟩
  · simp [hpre.2]
  · rw [List.concat_eq_append] at hpre ⊢
    have hadj := ((path_append links head x p qs []).1 hpre).2
    simp [hadj.2]

theorem next_mem {x : ν} {before after : List ν} (hring : links.IsRing head (before ++ x :: after)) :
    links.next x ∈ head :: after := by
  obtain ⟨-, hpost⟩ := (path_append links head head x before after).1 hring.path
  cases after with
  | nil => simp [hpost.1]
  | cons => simp [hpost.1.1]

theorem prev_head_mem (hring : links.IsRing head items) : links.prev head ∈ head :: items := by
  rcases List.eq_nil_or_concat items with rfl | ⟨ys, y, rfl⟩
  · simp [hring.path.2]
  · rw [List.concat_eq_append] at hring ⊢
    simp [prev_head hring]

theorem next_head_mem (hring : links.IsRing head items) : links.next head ∈ head :: items := by
  cases items with
  | nil => simp [hring.path.1]
  | cons => simp [hring.path.1.1]

section RingOperations

variable [DecidableEq ν] {links : Links ν} {head x node item : ν} {items xs : List ν}

theorem next_of_peekFirst (hpeek : links.peekFirst head = some node) : links.next head = node := by
  unfold peekFirst at hpeek
  split at hpeek
  · cases hpeek
  · exact Option.some.inj hpeek

variable (hring : links.IsRing head items)

include hring

theorem isEmpty_iff : links.isEmpty head = true ↔ items = [] := by
  cases items with
  | nil => simpa [isEmpty] using hring.path.1
  | cons x =>
    have hne : x ≠ head := by
      rintro rfl
      exact absurd hring.nodup (by simp)
    simp [isEmpty, hring.path.1.1, hne]

theorem peekFirst_eq : links.peekFirst head = items.head? := by
  unfold peekFirst
  split
  · next hempty => rw [(isEmpty_iff hring).1 hempty, List.head?_nil]
  · next hempty =>
    cases items with
    | nil => exact absurd ((isEmpty_iff hring).2 rfl) hempty
    | cons => rw [hring.path.1.1, List.head?_cons]

theorem peekLast_eq : links.peekLast head = items.getLast? := by
  unfold peekLast
  split
  · next hempty => rw [(isEmpty_iff hring).1 hempty, List.getLast?_nil]
  · next hempty =>
    rcases List.eq_nil_or_concat items with rfl | ⟨ys, y, rfl⟩
    · exact absurd ((isEmpty_iff hring).2 rfl) hempty
    · rw [List.concat_eq_append] at hring ⊢
      rw [prev_head hring, List.getLast?_append, List.getLast?_singleton, Option.some_or]

theorem IsRing.addTail (hx : x ∉ head :: items) : (links.addTail head x).IsRing head (items ++ [x]) := by
  have hnodup := hring.nodup
  simp only [List.mem_cons, not_or] at hx
  obtain ⟨hxhead, hxitems⟩ := hx
  refine ⟨?_, ?_⟩
  · rw [← List.cons_append]
    apply List.Nodup.append hnodup (List.nodup_singleton x)
    simp [hxhead, hxitems]
  rcases List.eq_nil_or_concat items with rfl | ⟨ys, y, rfl⟩
  · have hprev : links.prev head = head := hring.path.2
    simp [Links.addTail, addBetween, Path, Adjacent, hprev, hxhead, Ne.symm hxhead]
  · rw [List.concat_eq_append] at hring hnodup hxitems ⊢
    have hy := prev_head hring
    obtain ⟨hpath, -⟩ := (path_append links head head y ys []).1 hring.path
    simp only [List.mem_append, List.mem_singleton, not_or] at hxitems
    have hfacts : head ∉ ys ∧ head ≠ y ∧ y ∉ ys := by
      simp only [List.nodup_cons, List.mem_append, List.mem_singleton, not_or, List.nodup_append] at hnodup
      refine ⟨hnodup.1.1, hnodup.1.2, ?_⟩
      intro hmem
      exact hnodup.2.2.2 y hmem y rfl rfl
    rw [List.append_assoc, List.cons_append, List.nil_append, path_append]
    constructor
    · apply hpath.congr
      · intro n hn
        simp only [List.mem_cons] at hn
        have hnx : n ≠ x := by rintro rfl; tauto
        have hny : n ≠ y := by rintro rfl; tauto
        simp [Links.addTail, addBetween, hy, hnx, hny]
      · intro n hn
        simp only [List.mem_cons] at hn
        have hnx : n ≠ x := by rintro rfl; tauto
        have hnh : n ≠ head := by rintro rfl; tauto
        simp [Links.addTail, addBetween, hnx, hnh]
    · have hxy : x ≠ y := hxitems.2
      simp [Path, Adjacent, Links.addTail, addBetween, hy, hxhead, hxy.symm]

theorem IsRing.addHead (hx : x ∉ head :: items) : (links.addHead head x).IsRing head (x :: items) := by
  have hnodup := hring.nodup
  simp only [List.mem_cons, not_or] at hx
  obtain ⟨hxhead, hxitems⟩ := hx
  refine ⟨?_, ?_⟩
  · rw [List.nodup_cons] at hnodup ⊢
    simp [Ne.symm hxhead, hnodup.1, hxitems, hnodup.2]
  cases items with
  | nil =>
    have hnext : links.next head = head := hring.path.1
    simp [Links.addHead, addBetween, Path, Adjacent, hnext, hxhead, Ne.symm hxhead]
  | cons y =>
    obtain ⟨⟨hy, -⟩, hpath⟩ := hring.path
    simp only [List.mem_cons, not_or] at hxitems
    simp only [List.nodup_cons, List.mem_cons, not_or] at hnodup
    refine ⟨?_, ?_, ?_⟩
    · simp [Adjacent, Links.addHead, addBetween, hy, Ne.symm hxhead, hxitems.1]
    · simp [Adjacent, Links.addHead, addBetween, hy]
    · apply hpath.congr
      · intro n hn
        simp only [List.mem_cons] at hn
        have hnx : n ≠ x := by rintro rfl; tauto
        have hnh : n ≠ head := by rintro rfl; tauto
        simp [Links.addHead, addBetween, hnx, hnh]
      · intro n hn
        simp only [List.mem_cons] at hn
        have hnx : n ≠ x := by rintro rfl; tauto
        have hny : n ≠ y := by rintro rfl; tauto
        simp [Links.addHead, addBetween, hy, hnx, hny]

omit hring

theorem del_next (links : Links ν) (x n : ν) : (links.del x).next n =
    if n = x then x else if n = links.prev x then links.next x else links.next n := by
  simp [del, unlink, itemInit, update_apply]

theorem del_prev (links : Links ν) (x n : ν) : (links.del x).prev n =
    if n = x then x else if n = links.next x then links.prev x else links.prev n := by
  simp [del, unlink, itemInit, update_apply]

/-- Deleting a node that points at itself changes nothing. -/
theorem del_of_self (hnext : links.next x = x) (hprev : links.prev x = x) : links.del x = links := by
  have hn : (links.del x).next = links.next := by
    funext n
    rw [del_next]
    split
    · next h => rw [h, hnext]
    · rw [if_neg (by rwa [hprev])]
  have hp : (links.del x).prev = links.prev := by
    funext n
    rw [del_prev]
    split
    · next h => rw [h, hprev]
    · rw [if_neg (by rwa [hnext])]
  exact congrArg₂ Links.mk hn hp

/-- No other node points at this one. -/
def Isolated (links : Links ν) (node : ν) : Prop :=
  ∀ n, n ≠ node → links.next n ≠ node ∧ links.prev n ≠ node

variable (h : links.Isolated node)

include h

theorem Isolated.addTail (hhead : head ≠ node) (hitem : item ≠ node) :
    (links.addTail head item).Isolated node := by
  intro n hn
  have hprev := (h head hhead).2
  simp only [Links.addTail, addBetween, update_apply]
  constructor
  · split
    · exact hhead
    · split
      · exact hitem
      · exact (h n hn).1
  · split
    · exact hitem
    · split
      · exact hprev
      · exact (h n hn).2

theorem Isolated.del (hitem : item ≠ node) : (links.del item).Isolated node := by
  intro n hn
  rw [del_next, del_prev]
  constructor
  · split
    · exact hitem
    · split
      · exact (h item hitem).1
      · exact (h n hn).1
  · split
    · exact hitem
    · split
      · exact (h item hitem).2
      · exact (h n hn).2

theorem Isolated.itemInit (hitem : item ≠ node) : (links.itemInit item).Isolated node := by
  intro n hn
  simp only [Links.itemInit, update_apply]
  constructor
  · split
    · exact hitem
    · exact (h n hn).1
  · split
    · exact hitem
    · exact (h n hn).2

theorem Isolated.peekFirst (hhead : head ≠ node) : links.peekFirst head ≠ some node :=
  fun hpeek ↦ (h head hhead).1 (next_of_peekFirst hpeek)

omit h

/-- The part of a path up to the predecessor of the deleted item. -/
theorem Path.del {a b : ν} (hpath : links.Path a xs b) (hx : x ∉ a :: xs ++ [b])
    (hprev : links.prev x ∉ a :: xs) (hnext : links.next x ∉ b :: xs) : (links.del x).Path a xs b := by
  simp only [List.cons_append, List.mem_cons, List.mem_append, List.not_mem_nil, or_false, not_or] at hx
  apply hpath.congr
  · intro n hn
    have hnx : n ≠ x := by rintro rfl; simp only [List.mem_cons] at hn; tauto
    have hnp : n ≠ links.prev x := by rintro rfl; exact hprev hn
    rw [del_next, if_neg hnx, if_neg hnp]
  · intro n hn
    have hnx : n ≠ x := by rintro rfl; simp only [List.mem_cons] at hn; tauto
    have hnn : n ≠ links.next x := by rintro rfl; exact hnext hn
    rw [del_prev, if_neg hnx, if_neg hnn]

theorem IsRing.del {before after : List ν} (hring : links.IsRing head (before ++ x :: after)) :
    (links.del x).IsRing head (before ++ after) := by
  have hnodup := hring.nodup
  refine ⟨?_, ?_⟩
  · exact List.Nodup.sublist
      ((List.Sublist.append_left (List.sublist_cons_self x after) before).cons_cons head) hnodup
  obtain ⟨hpre, hpost⟩ := (path_append links head head x before after).1 hring.path
  simp only [List.nodup_cons, List.nodup_append, List.mem_append, List.mem_cons, not_or,
    forall_eq_or_imp] at hnodup
  obtain ⟨⟨hheadBefore, hheadX, hheadAfter⟩, hbefore, ⟨hxAfter, hafter⟩, hdisjoint⟩ := hnodup
  have hxBefore : x ∉ before := fun h ↦ (hdisjoint x h).1 rfl
  rcases List.eq_nil_or_concat before with rfl | ⟨qs, p, rfl⟩
  · have hp : links.prev x = head := hpre.2
    cases after with
    | nil =>
      have hn : links.next x = head := hpost.1
      simp [Path, Adjacent, del_next, del_prev, hp, hn, hheadX]
    | cons =>
      obtain ⟨⟨hn, -⟩, hrest⟩ := hpost
      simp only [List.mem_cons, not_or, List.nodup_cons] at hxAfter hheadAfter hafter
      refine ⟨?_, hrest.del ?_ ?_ ?_⟩
      · simp [Adjacent, del_next, del_prev, hp, hn, hheadX, Ne.symm hxAfter.1]
      · simp [hxAfter.1, hxAfter.2, Ne.symm hheadX]
      · simp [hp, hheadAfter.1, hheadAfter.2]
      · simp [hn, hafter.1, Ne.symm hheadAfter.1]
  · rw [List.concat_eq_append] at hpre hheadBefore hbefore hdisjoint hxBefore ⊢
    obtain ⟨hqs, hadj⟩ := (path_append links head x p qs []).1 hpre
    have hp : links.prev x = p := hadj.2
    simp only [List.mem_append, List.mem_singleton, not_or] at hheadBefore hxBefore
    have hpqs : p ∉ qs := fun h ↦ by
      simp only [List.nodup_append] at hbefore
      exact hbefore.2.2 p h p (by simp) rfl
    rw [List.append_assoc, List.cons_append, List.nil_append, path_append]
    cases after with
    | nil =>
      have hn : links.next x = head := hpost.1
      refine ⟨hqs.del ?_ ?_ ?_, ?_⟩
      · simp [Ne.symm hheadX, hxBefore.1, hxBefore.2]
      · simp [hp, hpqs, Ne.symm hheadBefore.2]
      · simp [hn, hheadBefore.1, hheadBefore.2]
      · simp [Path, Adjacent, del_next, del_prev, hp, hn, hheadX, Ne.symm hxBefore.2]
    | cons s rest =>
      obtain ⟨⟨hn, -⟩, hrest⟩ := hpost
      simp only [List.mem_cons, not_or, List.nodup_cons] at hxAfter hheadAfter hafter
      have hps : p ≠ s ∧ p ∉ rest := by
        have h := hdisjoint p (by simp)
        refine ⟨(h.2 s (by simp)), fun hmem ↦ h.2 p (by simp [hmem]) rfl⟩
      have hsqs : s ∉ qs := fun h ↦ (hdisjoint s (by simp [h])).2 s (by simp) rfl
      refine ⟨hqs.del ?_ ?_ ?_, ?_, hrest.del ?_ ?_ ?_⟩
      · simp [Ne.symm hheadX, hxBefore.1, hxBefore.2]
      · simp [hp, hpqs, Ne.symm hheadBefore.2]
      · simp [hn, Ne.symm hps.1, hsqs]
      · simp [Adjacent, del_next, del_prev, hp, hn, Ne.symm hxBefore.2, Ne.symm hxAfter.1]
      · simp [hxAfter.1, hxAfter.2, Ne.symm hheadX]
      · simp [hp, hps.1, hps.2]
      · simp [hn, hafter.1, Ne.symm hheadAfter.1]

theorem del_self (links : Links ν) (x : ν) : (links.del x).next x = x ∧ (links.del x).prev x = x := by
  simp [del_next, del_prev]

theorem popHead_cons (hring : links.IsRing head (x :: xs)) : links.popHead head = (some x, links.del x) := by
  have hne : ¬ links.isEmpty head = true := by simp [isEmpty_iff hring]
  rw [popHead, if_neg hne, hring.path.1.1]

theorem rotateLeft_nil (hring : links.IsRing head []) : links.rotateLeft head = (none, links) := by
  rw [rotateLeft, if_pos ((isEmpty_iff hring).2 rfl)]

/-- Rotating is deleting the first item and adding it at the tail. -/
theorem rotateLeft_cons_cons {y : ν} {ys : List ν} (hring : links.IsRing head (x :: y :: ys)) :
    links.rotateLeft head = (some x, (links.del x).addTail head x) := by
  obtain ⟨⟨hx, hxp⟩, ⟨hy, hyp⟩, hrest⟩ := hring.path
  have hnodup := hring.nodup
  obtain ⟨zs, z, hz⟩ : ∃ zs z, y :: ys = zs ++ [z] :=
    ⟨(y :: ys).dropLast, (y :: ys).getLast (by simp), by simp [List.dropLast_append_getLast]⟩
  have hlast : links.prev head = z := by
    rw [hz, ← List.cons_append] at hring
    exact prev_head hring
  have hzmem : z ∈ y :: ys := by rw [hz]; simp
  simp only [List.nodup_cons, List.mem_cons, not_or] at hnodup
  have hzx : z ≠ x := by rintro rfl; simp only [List.mem_cons] at hzmem; tauto
  have hzhead : z ≠ head := by rintro rfl; simp only [List.mem_cons] at hzmem; tauto
  have hempty : ¬ links.isEmpty head = true := by simp [isEmpty_iff hring]
  have hsingle : ¬ links.isSingle head = true := by simp [isSingle, hx, hlast, Ne.symm hzx]
  rw [rotateLeft, if_neg hempty, if_neg hsingle]
  simp only [hx, hy, hlast, addTail, addBetween, Prod.mk.injEq, true_and]
  congr 1
  · funext n
    simp only [update_apply, del_next, del_prev, hxp, hy, hlast]
    split_ifs <;> simp_all
  · funext n
    simp only [update_apply, del_prev, hxp, hy, hlast]
    split_ifs <;> simp_all

theorem rotateLeft_singleton (hring : links.IsRing head [x]) : links.rotateLeft head = (some x, links) := by
  have hempty : ¬ links.isEmpty head = true := by simp [isEmpty_iff hring]
  obtain ⟨⟨hx, -⟩, -, hlast⟩ := hring.path
  have hsingle : links.isSingle head = true := by
    rw [isSingle, hx, hlast]
    simpa using hempty
  rw [rotateLeft, if_neg hempty, if_pos hsingle, hx]

/-- Rotating returns the first item and puts it behind the others. -/
theorem IsRing.rotateLeft (hring : links.IsRing head (x :: xs)) :
    (links.rotateLeft head).1 = some x ∧ (links.rotateLeft head).2.IsRing head (xs ++ [x]) := by
  cases xs with
  | nil =>
    rw [rotateLeft_singleton hring]
    exact ⟨rfl, hring⟩
  | cons y ys =>
    have hnodup := hring.nodup
    simp only [List.nodup_cons, List.mem_cons, not_or] at hnodup
    have hdel : (links.del x).IsRing head (y :: ys) :=
      IsRing.del (show links.IsRing head ([] ++ x :: y :: ys) from hring)
    rw [rotateLeft_cons_cons hring]
    refine ⟨rfl, hdel.addTail ?_⟩
    simp only [List.mem_cons, not_or]
    exact ⟨Ne.symm hnodup.1.1, hnodup.2.1⟩

end RingOperations

/-! ## Families of lists over one pointer map -/

variable {κ : Type v}

/-- Disjoint lists, one per key; every other node points at itself. -/
structure Rings (links : Links ν) (head : κ → ν) (items : κ → List ν) : Prop where
  ring : ∀ k, links.IsRing (head k) (items k)
  disjoint : ∀ k l, k ≠ l → List.Disjoint (head k :: items k) (head l :: items l)
  idle : ∀ x, (∀ k, x ∉ head k :: items k) → links.next x = x ∧ links.prev x = x

namespace Rings

variable {links : Links ν} {head : κ → ν} {items : κ → List ν}

theorem detached (hinj : Function.Injective head) : (Links.detached : Links ν).Rings head fun _ ↦ [] where
  ring k := ⟨by simp, by simp [Path, Adjacent, Links.detached]⟩
  disjoint k l hne := by
    simp only [List.disjoint_cons_left, List.mem_singleton, List.disjoint_nil_left, and_true]
    exact fun h ↦ hne (hinj h)
  idle x _ := ⟨rfl, rfl⟩

variable {k : κ} {x : ν} {xs : List ν}

theorem eq_of_mem {l : κ} (hrings : links.Rings head items) (hk : x ∈ head k :: items k)
    (hl : x ∈ head l :: items l) : k = l := by
  by_contra hne
  exact hrings.disjoint k l hne hk hl

variable [DecidableEq ν] [DecidableEq κ]

variable (hrings : links.Rings head items)

include hrings

/-- One list changes, and the pointers of the others are untouched. -/
theorem change {links' : Links ν} (hring : links'.IsRing (head k) xs)
    (hframe : ∀ n, n ∉ head k :: items k → n ∉ head k :: xs →
      links'.next n = links.next n ∧ links'.prev n = links.prev n)
    (hfresh : ∀ n ∈ xs, n ∈ items k ∨ ∀ l, n ∉ head l :: items l)
    (hdropped : ∀ n ∈ items k, n ∉ xs → links'.next n = n ∧ links'.prev n = n) :
    links'.Rings head (update items k xs) := by
  have houtside : ∀ l, l ≠ k → ∀ n ∈ head l :: items l, n ∉ head k :: items k ∧ n ∉ head k :: xs := by
    intro l hne n hn
    have hnk : n ∉ head k :: items k := fun h ↦ hne (hrings.eq_of_mem hn h)
    refine ⟨hnk, ?_⟩
    simp only [List.mem_cons, not_or] at hnk ⊢
    refine ⟨hnk.1, fun hmem ↦ ?_⟩
    rcases hfresh n hmem with h | h
    · exact hnk.2 h
    · exact h l hn
  refine ⟨?_, ?_, ?_⟩
  · intro l
    by_cases hl : l = k
    · subst hl
      simpa using hring
    · rw [update_of_ne hl]
      apply (hrings.ring l).congr
      · intro n hn
        exact (hframe n (houtside l hl n hn).1 (houtside l hl n hn).2).1
      · intro n hn
        exact (hframe n (houtside l hl n hn).1 (houtside l hl n hn).2).2
  · intro l m hne n hnl hnm
    by_cases hl : l = k
    · subst hl
      rw [update_self] at hnl
      rw [update_of_ne hne.symm] at hnm
      exact (houtside m hne.symm n hnm).2 hnl
    · rw [update_of_ne hl] at hnl
      by_cases hm : m = k
      · subst hm
        rw [update_self] at hnm
        exact (houtside l hl n hnl).2 hnm
      · rw [update_of_ne hm] at hnm
        exact hrings.disjoint l m hne hnl hnm
  · intro n hn
    have hnk : n ∉ head k :: xs := by simpa using hn k
    by_cases hold : n ∈ items k
    · exact hdropped n hold fun h ↦ hnk (List.mem_cons_of_mem _ h)
    · have hnold : n ∉ head k :: items k := by
        simp only [List.mem_cons, not_or] at hnk ⊢
        exact ⟨hnk.1, hold⟩
      have hidle : links.next n = n ∧ links.prev n = n := by
        apply hrings.idle
        intro l
        by_cases hl : l = k
        · rwa [hl]
        · simpa [update_of_ne hl] using hn l
      obtain ⟨hnext, hprev⟩ := hframe n hnold hnk
      exact ⟨hnext.trans hidle.1, hprev.trans hidle.2⟩

theorem addTail (k : κ) (hx : ∀ l, x ∉ head l :: items l) :
    (links.addTail (head k) x).Rings head (update items k (items k ++ [x])) := by
  apply hrings.change ((hrings.ring k).addTail (hx k))
  · intro n hn hnx
    have hnp : n ≠ links.prev (head k) := fun h ↦ hn (h ▸ prev_head_mem (hrings.ring k))
    simp only [List.mem_cons, List.mem_append, List.not_mem_nil, or_false, not_or] at hnx
    simp [Links.addTail, addBetween, hnp, hnx.1, hnx.2.2]
  · intro n hn
    rcases List.mem_append.1 hn with h | h
    · exact Or.inl h
    · rw [List.mem_singleton.1 h]
      exact Or.inr hx
  · intro n hn hnot
    exact absurd (List.mem_append_left _ hn) hnot

theorem addHead (k : κ) (hx : ∀ l, x ∉ head l :: items l) :
    (links.addHead (head k) x).Rings head (update items k (x :: items k)) := by
  apply hrings.change ((hrings.ring k).addHead (hx k))
  · intro n hn hnx
    have hnp : n ≠ links.next (head k) := fun h ↦ hn (h ▸ next_head_mem (hrings.ring k))
    simp only [List.mem_cons, not_or] at hnx
    simp [Links.addHead, addBetween, hnp, hnx.1, hnx.2.1]
  · intro n hn
    rcases List.mem_cons.1 hn with rfl | h
    · exact Or.inr hx
    · exact Or.inl h
  · intro n hn hnot
    exact absurd (List.mem_cons_of_mem _ hn) hnot

theorem del_mem {before after : List ν} (hk : items k = before ++ x :: after) :
    (links.del x).Rings head (update items k (before ++ after)) := by
  have hring : links.IsRing (head k) (before ++ x :: after) := hk ▸ hrings.ring k
  apply hrings.change hring.del
  · intro n hn hnx
    have hmem : ∀ m, m ∈ head k :: before ∨ m ∈ head k :: after ∨ m = x → m ∈ head k :: items k := by
      intro m hm
      rw [hk]
      simp only [List.mem_cons, List.mem_append] at hm ⊢
      tauto
    have hne : n ≠ x := fun h ↦ hn (hmem n (by simp [h]))
    have hp : n ≠ links.prev x := fun h ↦ hn (hmem n (Or.inl (h ▸ prev_mem hring)))
    have hs : n ≠ links.next x := fun h ↦ hn (hmem n (Or.inr (Or.inl (h ▸ next_mem hring))))
    rw [del_next, del_prev, if_neg hne, if_neg hne, if_neg hp, if_neg hs]
    exact ⟨rfl, rfl⟩
  · intro n hn
    left
    rw [hk]
    simp only [List.mem_append, List.mem_cons] at hn ⊢
    tauto
  · intro n hn hnot
    have hnx : n = x := by
      rw [hk] at hn
      simp only [List.mem_append, List.mem_cons] at hn hnot
      tauto
    rw [hnx]
    exact del_self links x

/-- Deleting an item takes it off the list it is on, if any. -/
theorem del (hx : ∀ l, x ≠ head l) : (links.del x).Rings head fun l ↦ (items l).erase x := by
  by_cases hmem : ∃ k, x ∈ items k
  · obtain ⟨k, hk⟩ := hmem
    obtain ⟨before, after, hsplit⟩ := List.append_of_mem hk
    have hnodup := (List.nodup_cons.1 (hrings.ring k).nodup).2
    have herase : (items k).erase x = before ++ after := by
      have hbefore : x ∉ before := by
        rw [hsplit] at hnodup
        exact fun h ↦ (List.disjoint_of_nodup_append hnodup h) (by simp)
      rw [hsplit, List.erase_append_right _ hbefore, List.erase_cons_head]
    have hfun : (fun l ↦ (items l).erase x) = update items k (before ++ after) := by
      funext l
      by_cases hl : l = k
      · subst hl
        rw [update_self, herase]
      · rw [update_of_ne hl]
        apply List.erase_of_not_mem
        intro h
        exact hl (hrings.eq_of_mem (List.mem_cons_of_mem _ h) (List.mem_cons_of_mem _ hk))
    rw [hfun]
    exact hrings.del_mem hsplit
  · simp only [not_exists] at hmem
    have hfun : (fun l ↦ (items l).erase x) = items := by
      funext l
      exact List.erase_of_not_mem (hmem l)
    obtain ⟨hnext, hprev⟩ := hrings.idle x fun l ↦ by simp [hx l, hmem l]
    rw [hfun, del_of_self hnext hprev]
    exact hrings

theorem popHead (hk : items k = x :: xs) :
    links.popHead (head k) = (some x, links.del x) ∧ (links.del x).Rings head (update items k xs) :=
  ⟨popHead_cons (hk ▸ hrings.ring k), hrings.del_mem (List.nil_append (x :: xs) ▸ hk)⟩

theorem rotateLeft (hk : items k = x :: xs) : (links.rotateLeft (head k)).1 = some x ∧
      (links.rotateLeft (head k)).2.Rings head (update items k (xs ++ [x])) := by
  have hring : links.IsRing (head k) (x :: xs) := hk ▸ hrings.ring k
  cases xs with
  | nil =>
    rw [rotateLeft_singleton hring, List.nil_append, ← hk, update_eq_self]
    exact ⟨rfl, hrings⟩
  | cons y ys =>
    rw [rotateLeft_cons_cons hring]
    have hdel := (hrings.popHead hk).2
    have hx : ∀ l, x ∉ head l :: update items k (y :: ys) l := by
      intro l hmem
      by_cases hl : l = k
      · subst hl
        have hnodup := hring.nodup
        simp only [update_self, List.mem_cons] at hmem
        simp only [List.nodup_cons, List.mem_cons, not_or] at hnodup
        rcases hmem with rfl | rfl | h <;> tauto
      · rw [update_of_ne hl] at hmem
        exact hl (hrings.eq_of_mem hmem (by rw [hk]; simp))
    have hadd := hdel.addTail k hx
    rw [update_self, update_idem] at hadd
    exact ⟨rfl, hadd⟩

end Rings

end Links

end NfvActor.Foundation
