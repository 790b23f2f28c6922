import Mathlib.Data.List.AList
import Mathlib.Tactic
import NfvActor.Foundation.Transition
import NfvActor.Foundation.CircularList

/-!
# The hash map with a rotating list

`fast_hash_map` keeps one list item per key in two places: a hash table finds the item of a key, and a circular
list visits the items in turn. List items are named by their addresses, which the memory allocator chooses among
those not in use.
-/

namespace NfvActor.Utils

open Foundation
open Function

/-- The head of the list or the list item at an address. -/
inductive MapNode where
  | head
  | item (addr : ℕ)
  deriving DecidableEq

/-- `links` are the pointers of the items and of `list_head_`, `valPtr` is the other field of an item, and
`heap` are the addresses of allocated items. -/
structure FastHashMap (K V : Type) [DecidableEq K] where
  links : Links MapNode
  htable : AList fun _ : K ↦ ℕ
  valPtr : MapNode → V
  heap : Finset ℕ

namespace FastHashMap

variable {K V : Type} [DecidableEq K]

/-- An empty map over memory that holds anything. -/
def empty (links : Links MapNode) (valPtr : MapNode → V) : FastHashMap K V where
  links := links.itemInit .head
  htable := ∅
  valPtr := valPtr
  heap := ∅

/-- An item is allocated at `addr`, where memory holds the pointers `next` and `prev`. -/
structure FreshItem where
  addr : ℕ
  next : MapNode
  prev : MapNode

/-- A present key returns null. An address in use is never allocated again. -/
def emplace (map : FastHashMap K V) (key : K) (value : V) (fresh : FreshItem) :
    Option (Option V × FastHashMap K V) :=
  if (map.htable.lookup key).isSome then some (none, map)
  else if fresh.addr ∈ map.heap then none
  else
    let item := MapNode.item fresh.addr
    let links : Links MapNode :=
      { next := update map.links.next item fresh.next
        prev := update map.links.prev item fresh.prev }
    some (some value,
      { links := links.addTail .head item
        htable := map.htable.insert key fresh.addr
        valPtr := update map.valPtr item value
        heap := insert fresh.addr map.heap })

def erase (map : FastHashMap K V) (key : K) : FastHashMap K V :=
  match map.htable.lookup key with
  | none => map
  | some addr =>
    { map with
      links := map.links.del (.item addr)
      htable := map.htable.erase key
      heap := map.heap.erase addr }

def find (map : FastHashMap K V) (key : K) : Option V :=
  (map.htable.lookup key).map fun addr ↦ map.valPtr (.item addr)

def cnt (map : FastHashMap K V) : ℕ := map.htable.entries.length

def next (map : FastHashMap K V) : Option V × FastHashMap K V :=
  ((map.links.rotateLeft .head).1.map map.valPtr,
    { map with links := (map.links.rotateLeft .head).2 })

/-- What `count` consecutive calls of `next` return. -/
def nexts : ℕ → FastHashMap K V → List (Option V)
  | 0, _ => []
  | count + 1, map => map.next.1 :: nexts count map.next.2

/-- The list holds exactly the items at these addresses, in this order. -/
def Lists (map : FastHashMap K V) (addrs : List ℕ) : Prop :=
  map.links.IsRing .head (addrs.map .item)

/-- The addresses that the hash table gives to its keys, one per key. -/
def addrs (map : FastHashMap K V) : List ℕ := map.htable.entries.map Sigma.snd

variable {map : FastHashMap K V}

theorem Lists.nodup {addrs : List ℕ} (hlists : map.Lists addrs) : addrs.Nodup := by
  have hring : map.links.IsRing .head (addrs.map .item) := hlists
  exact List.Nodup.of_map _ (List.nodup_cons.1 hring.nodup).2

theorem Lists.next_cons {addr : ℕ} {rest : List ℕ} (hlists : map.Lists (addr :: rest)) :
    map.next.1 = some (map.valPtr (.item addr)) ∧ map.next.2.Lists (rest ++ [addr]) := by
  have hrotate := Links.IsRing.rotateLeft hlists
  constructor
  · rw [next, hrotate.1]
    rfl
  · change (map.links.rotateLeft .head).2.IsRing .head ((rest ++ [addr]).map MapNode.item)
    rw [List.map_append]
    exact hrotate.2

theorem Lists.next_nil (hlists : map.Lists []) : map.next = (none, map) := by
  rw [next, Links.rotateLeft_nil hlists]
  rfl

/-- At most as many calls of `next` as there are items return the first values in order. -/
theorem Lists.nexts {addrs : List ℕ} (hlists : map.Lists addrs) {count : ℕ} (hcount : count ≤ addrs.length) :
    nexts count map = (addrs.take count).map fun addr ↦ some (map.valPtr (.item addr)) := by
  induction count generalizing map addrs with
  | zero => rfl
  | succ count ih =>
    cases addrs with
    | nil => cases hcount
    | cons addr rest =>
      have hrest : count ≤ rest.length := Nat.le_of_succ_le_succ hcount
      have hnext := hlists.next_cons
      have hlen : count ≤ (rest ++ [addr]).length := by
        rw [List.length_append]
        omega
      calc FastHashMap.nexts (count + 1) map = map.next.1 :: FastHashMap.nexts count map.next.2 := rfl
        _ = some (map.valPtr (.item addr)) ::
              ((rest ++ [addr]).take count).map fun addr ↦ some (map.valPtr (.item addr)) := by
            rw [hnext.1, ih hnext.2 hlen]
            rfl
        _ = ((addr :: rest).take (count + 1)).map fun addr ↦ some (map.valPtr (.item addr)) := by
            rw [List.take_append_of_le_length hrest, List.take_succ_cons, List.map_cons]

/-- The list items are those of the hash table, and they are what is allocated. -/
structure Synced (map : FastHashMap K V) : Prop where
  lists : ∃ addrs, map.Lists addrs ∧ addrs.Perm map.addrs
  heap : ∀ addr, addr ∈ map.heap ↔ addr ∈ map.addrs

theorem find_entry (map : FastHashMap K V) {entry : Sigma fun _ : K ↦ ℕ}
    (hentry : entry ∈ map.htable.entries) : map.find entry.1 = some (map.valPtr (.item entry.2)) := by
  have hlookup : map.htable.lookup entry.1 = some entry.2 := AList.mem_lookup_iff.2 hentry
  rw [find, hlookup]
  rfl

theorem mem_addrs_of_lookup {key : K} {addr : ℕ} (hlookup : map.htable.lookup key = some addr) :
    addr ∈ map.addrs := by
  have hentry : (⟨key, addr⟩ : Sigma fun _ : K ↦ ℕ) ∈ map.htable.entries := AList.mem_lookup_iff.1 hlookup
  exact List.mem_map_of_mem hentry

theorem synced_empty (links : Links MapNode) (valPtr : MapNode → V) :
    (empty links valPtr : FastHashMap K V).Synced where
  lists := by
    have hself : (links.itemInit .head).Path .head [] .head :=
      ⟨update_self MapNode.head _ links.next, update_self MapNode.head _ links.prev⟩
    exact ⟨[], ⟨List.nodup_singleton _, hself⟩, List.Perm.refl _⟩
  heap := by
    intro addr
    constructor
    · intro hmem
      exact absurd hmem (Finset.notMem_empty addr)
    · intro hmem
      exact absurd hmem List.not_mem_nil

namespace Synced

variable {map map' : FastHashMap K V} {key : K} {value : V} {fresh : FreshItem} {reply : Option V}

/-- A new item is in neither view before and in both afterwards. -/
theorem emplace (hsynced : map.Synced) (hemplace : map.emplace key value fresh = some (reply, map')) :
    map'.Synced := by
  unfold FastHashMap.emplace at hemplace
  split at hemplace
  · have hsame := (Prod.mk.inj (Option.some.inj hemplace)).2
    exact hsame ▸ hsynced
  · next habsent =>
    split at hemplace
    · cases hemplace
    · next hfree =>
      obtain ⟨addrs, hlists, hperm⟩ := hsynced.lists
      have hnew : map'.addrs = fresh.addr :: map.addrs := by
        rw [← (Prod.mk.inj (Option.some.inj hemplace)).2]
        have hkey : key ∉ map.htable := by
          rw [← AList.lookup_isSome]
          exact habsent
        change ((map.htable.insert key fresh.addr).entries).map Sigma.snd = _
        rw [AList.entries_insert_of_notMem hkey]
        rfl
      have hout : fresh.addr ∉ map.addrs := fun hmem ↦ hfree ((hsynced.heap _).2 hmem)
      have houtRing : MapNode.item fresh.addr ∉ MapNode.head :: addrs.map .item := by
        simp only [List.mem_cons, List.mem_map, MapNode.item.injEq, exists_eq_right, not_or, reduceCtorEq,
          not_false_eq_true, true_and]
        exact fun hmem ↦ hout (hperm.mem_iff.1 hmem)
      constructor
      · refine ⟨addrs ++ [fresh.addr], ?_, ?_⟩
        · rw [← (Prod.mk.inj (Option.some.inj hemplace)).2]
          unfold Lists
          rw [List.map_append]
          apply Links.IsRing.addTail _ houtRing
          have hne : ∀ node ∈ MapNode.head :: addrs.map .item, node ≠ .item fresh.addr :=
            fun node hnode heq ↦ houtRing (heq ▸ hnode)
          apply Links.IsRing.congr hlists
          · exact fun node hnode ↦ update_of_ne (hne node hnode) _ _
          · exact fun node hnode ↦ update_of_ne (hne node hnode) _ _
        · rw [hnew]
          exact (List.perm_append_singleton _ _).trans (hperm.cons _)
      · intro addr
        rw [hnew, List.mem_cons, ← hsynced.heap, ← (Prod.mk.inj (Option.some.inj hemplace)).2]
        exact Finset.mem_insert

theorem erase (hsynced : map.Synced) (key : K) : (map.erase key).Synced := by
  unfold FastHashMap.erase
  split
  · exact hsynced
  · next addr hlookup =>
    have hmem : key ∈ map.htable.entries.keys := by
      change key ∈ map.htable
      rw [← AList.lookup_isSome, hlookup]
      rfl
    obtain ⟨addr', before, after, hbefore, hentries, herased⟩ := List.exists_of_kerase hmem
    have hentry : (⟨key, addr'⟩ : Sigma fun _ : K ↦ ℕ) ∈ map.htable.entries := by
      rw [hentries]
      exact List.mem_append_right _ List.mem_cons_self
    have haddr : addr' = addr := by
      have hlookup' : map.htable.lookup key = some addr' := AList.mem_lookup_iff.2 hentry
      rw [hlookup] at hlookup'
      exact (Option.some.inj hlookup').symm
    rw [haddr] at hentries
    have hold : map.addrs.Perm (addr :: (before ++ after).map Sigma.snd) := by
      unfold addrs
      rw [hentries, List.map_append, List.map_cons, List.map_append]
      exact List.perm_middle
    have hnew : (map.htable.erase key).entries.map Sigma.snd = (before ++ after).map Sigma.snd := by
      change (List.kerase key map.htable.entries).map Sigma.snd = _
      rw [herased]
    obtain ⟨addrs, hlists, hperm⟩ := hsynced.lists
    have hin : addr ∈ addrs := by
      rw [hperm.mem_iff, hold.mem_iff]
      exact List.mem_cons_self
    obtain ⟨first, second, hsplit⟩ := List.append_of_mem hin
    rw [hsplit] at hlists hperm
    have hrest : (first ++ second).Perm ((before ++ after).map Sigma.snd) :=
      (List.perm_cons addr).1 ((List.perm_middle.symm.trans hperm).trans hold)
    constructor
    · refine ⟨first ++ second, ?_, ?_⟩
      · unfold Lists at hlists ⊢
        rw [List.map_append] at hlists ⊢
        exact Links.IsRing.del hlists
      · change (first ++ second).Perm ((map.htable.erase key).entries.map Sigma.snd)
        rw [hnew]
        exact hrest
    · intro other
      change other ∈ map.heap.erase addr ↔ other ∈ (map.htable.erase key).entries.map Sigma.snd
      have hnodup := hlists.nodup
      rw [List.nodup_middle, List.nodup_cons] at hnodup
      rw [hnew, Finset.mem_erase, hsynced.heap, hold.mem_iff, ← hrest.mem_iff, List.mem_cons, ← hrest.mem_iff]
      constructor
      · intro h
        exact h.2.resolve_left h.1
      · intro h
        exact ⟨fun heq ↦ hnodup.1 (heq ▸ h), .inr h⟩

theorem next (hsynced : map.Synced) : map.next.2.Synced := by
  obtain ⟨addrs, hlists, hperm⟩ := hsynced.lists
  cases addrs with
  | nil =>
    rw [hlists.next_nil]
    exact hsynced
  | cons addr rest =>
    exact ⟨⟨rest ++ [addr], hlists.next_cons.2, (List.perm_append_singleton _ _).trans hperm⟩, hsynced.heap⟩

/-- A full turn of the list returns the value of every key. -/
theorem nexts_cnt (hsynced : map.Synced) : (nexts map.cnt map).Perm (map.htable.keys.map map.find) := by
  obtain ⟨addrs, hlists, hperm⟩ := hsynced.lists
  have hcnt : map.cnt = addrs.length := by
    rw [hperm.length_eq, FastHashMap.addrs, List.length_map]
    rfl
  have hfind : map.htable.keys.map map.find = map.addrs.map fun addr ↦ some (map.valPtr (.item addr)) := by
    unfold FastHashMap.addrs
    rw [AList.keys, List.keys, List.map_map, List.map_map]
    apply List.map_congr_left
    intro entry hentry
    exact map.find_entry hentry
  rw [hlists.nexts hcnt.le, hcnt, List.take_length, hfind]
  exact hperm.map _

end Synced

/-! ## Runs -/

/-- A call on the map; an insertion that allocates says where. -/
inductive MapCall (K V : Type) where
  | emplace (key : K) (value : V) (fresh : FreshItem)
  | erase (key : K)
  | find (key : K)
  | next

end FastHashMap

/-- A map with the value last put in for every key and not erased since. -/
structure MapRun (K V : Type) [DecidableEq K] where
  map : FastHashMap K V
  latest : K → Option V

namespace MapRun

open FastHashMap (MapCall)

variable {K V : Type} [DecidableEq K]

def step (s : MapRun K V) : MapCall K V → Option (MapRun K V)
  | .emplace key value fresh =>
    (s.map.emplace key value fresh).map fun result ↦
      { map := result.2
        latest := match s.latest key with
          | none => update s.latest key (some value)
          | some _ => s.latest }
  | .erase key => some { map := s.map.erase key, latest := update s.latest key none }
  | .find _ => some s
  | .next => some { s with map := s.map.next.2 }

def system (K V : Type) [DecidableEq K] : TransitionSystem (MapRun K V) (MapCall K V) where
  init s := ∃ links valPtr, s = { map := .empty links valPtr, latest := fun _ ↦ none }
  step := step

/-- The two views are in step and `find` reads the latest value. -/
structure Faithful (s : MapRun K V) : Prop where
  synced : s.map.Synced
  find : ∀ key, s.map.find key = s.latest key

namespace Faithful

variable {s s' : MapRun K V}

theorem emplace {key : K} {value : V} {fresh : FastHashMap.FreshItem} (h : s.Faithful)
    (hstep : s.step (.emplace key value fresh) = some s') : s'.Faithful := by
  obtain ⟨⟨reply, map⟩, hemplace, rfl⟩ := Option.map_eq_some_iff.1 hstep
  constructor
  · exact h.synced.emplace hemplace
  · intro other
    have hkey := h.find key
    unfold FastHashMap.emplace at hemplace
    split at hemplace
    · next hpresent =>
      obtain ⟨addr, hlookup⟩ := Option.isSome_iff_exists.1 hpresent
      rw [FastHashMap.find, hlookup] at hkey
      rw [← (Prod.mk.inj (Option.some.inj hemplace)).2, ← hkey]
      exact h.find other
    · next habsent =>
      split at hemplace
      · cases hemplace
      · next hfree =>
        have hnone : s.map.htable.lookup key = none := Option.not_isSome_iff_eq_none.1 habsent
        rw [FastHashMap.find, hnone] at hkey
        rw [← (Prod.mk.inj (Option.some.inj hemplace)).2, ← hkey]
        simp only [FastHashMap.find, Option.map_none]
        by_cases hother : other = key
        · rw [hother, AList.lookup_insert, update_self, Option.map_some, update_self]
        · rw [AList.lookup_insert_ne hother, update_of_ne hother, ← h.find other, FastHashMap.find]
          cases hlookup : s.map.htable.lookup other with
          | none => rfl
          | some addr =>
            have hlive : addr ∈ s.map.heap := (h.synced.heap addr).2 (FastHashMap.mem_addrs_of_lookup hlookup)
            have hne : MapNode.item addr ≠ .item fresh.addr := by
              intro heq
              rw [MapNode.item.injEq] at heq
              exact hfree (heq ▸ hlive)
            rw [Option.map_some, Option.map_some, update_of_ne hne]

theorem erase (h : s.Faithful) (key : K) :
    Faithful { map := s.map.erase key, latest := update s.latest key none } := by
  constructor
  · exact h.synced.erase key
  · intro other
    change (s.map.erase key).find other = update s.latest key none other
    cases hlookup : s.map.htable.lookup key with
    | none =>
      have hsame : s.map.erase key = s.map := by rw [FastHashMap.erase, hlookup]
      have hkey := h.find key
      rw [FastHashMap.find, hlookup] at hkey
      rw [hsame, h.find other]
      by_cases hother : other = key
      · rw [hother, update_self, ← hkey]
        rfl
      · rw [update_of_ne hother]
    | some addr =>
      have hfind : (s.map.erase key).find other =
          ((s.map.htable.erase key).lookup other).map fun addr ↦ s.map.valPtr (.item addr) := by
        rw [FastHashMap.erase, hlookup]
        rfl
      rw [hfind]
      by_cases hother : other = key
      · rw [hother, AList.lookup_erase, update_self]
        rfl
      · rw [AList.lookup_erase_ne hother, update_of_ne hother]
        exact h.find other

theorem step {c : MapCall K V} (h : s.Faithful) (hstep : s.step c = some s') : s'.Faithful := by
  cases c with
  | emplace => exact h.emplace hstep
  | erase key =>
    cases hstep
    exact h.erase key
  | find =>
    cases hstep
    exact h
  | next =>
    cases hstep
    exact ⟨h.synced.next, h.find⟩

end Faithful

theorem faithful_reachable {s : MapRun K V} (hreach : (system K V).Reachable TransitionSystem.anyStep s) :
    s.Faithful := by
  apply hreach.invariant
  · intro s hinit
    obtain ⟨links, valPtr, rfl⟩ := hinit
    exact ⟨FastHashMap.synced_empty links valPtr, fun _ ↦ rfl⟩
  · intro s c s' h _ hstep
    exact h.step hstep

/-- In every run the list holds one item per key of the hash table and no other, `find` returns the latest
value, a second insertion of a key returns null and changes nothing, and a full turn of the list returns the
value of every key once. -/
theorem two_views_in_step {s : MapRun K V} (hreach : (system K V).Reachable TransitionSystem.anyStep s) :
    (∃ addrs, s.map.Lists addrs ∧ addrs.Perm (s.map.htable.entries.map Sigma.snd)) ∧
    (∀ key, s.map.find key = s.latest key) ∧
    (∀ key value fresh, (s.latest key).isSome → s.map.emplace key value fresh = some (none, s.map)) ∧
    (FastHashMap.nexts s.map.cnt s.map).Perm (s.map.htable.keys.map s.latest) := by
  have hfaithful := faithful_reachable hreach
  have hfind : s.map.find = s.latest := funext hfaithful.find
  refine ⟨hfaithful.synced.lists, hfaithful.find, ?_, ?_⟩
  · intro key value fresh hkey
    rw [← hfaithful.find, FastHashMap.find, Option.isSome_map] at hkey
    exact if_pos hkey
  · rw [← hfind]
    exact hfaithful.synced.nexts_cnt

/-- Two keys are put in, the list turns, and the first key comes back with another value at the same address. -/
theorem two_views_in_step_reused_address :
    ∃ s : MapRun ℕ ℕ, s.map.cnt = 2 ∧ s.latest 0 = some 12 ∧
      (FastHashMap.nexts s.map.cnt s.map).Perm (s.map.htable.keys.map s.latest) := by
  obtain ⟨s, hs, hcnt, hlatest⟩ :
      ∃ s ∈ (system ℕ ℕ).run { map := .empty .detached fun _ ↦ 0, latest := fun _ ↦ none }
        [.emplace 0 10 ⟨5, .head, .head⟩, .emplace 1 11 ⟨6, .item 5, .item 5⟩, .next, .erase 0,
          .emplace 0 12 ⟨5, .item 6, .head⟩], s.map.cnt = 2 ∧ s.latest 0 = some 12 := by decide +kernel
  have hreach : (system ℕ ℕ).Reachable TransitionSystem.anyStep s := .replay ⟨_, _, rfl⟩ hs
  have hviews := two_views_in_step hreach
  exact ⟨s, hcnt, hlatest, hviews.2.2.2⟩

end MapRun

end NfvActor.Utils
