/-
A circle of items with a head, and every other item alone.

The links and the order of the items go together in one structure. Items are put
at the end and taken out wherever they are; taking out an item that is not in
the chain changes nothing.
-/

import XR872.Library.Circle

namespace XR872.Chains

open Circles

variable {ω : Type} [DecidableEq ω]

/-- `none` is the node of the head. -/
structure Chain (ω : Type) [DecidableEq ω] where
  links : Links (Option ω)
  items : List ω
  circle : Circle links none (items.map some)
  alone : ∀ item, item ∉ items → Alone links (some item)

def nodeOf (items : List ω) : Option ω := items.head?

namespace Chain

def empty (ω : Type) [DecidableEq ω] : Chain ω :=
  { links := Links.apart (Option ω)
    items := []
    circle := circle_nil _ _ ⟨rfl, rfl⟩
    alone := fun _ _ => ⟨rfl, rfl⟩ }

variable (chain : Chain ω)

def isAlone (item : ω) : Bool := decide (chain.links.next (some item) = some item)

theorem nodup : chain.items.Nodup :=
  (List.nodup_cons.mp chain.circle.nodup).2.of_map

theorem isAlone_iff (item : ω) : chain.isAlone item = true ↔
    item ∉ chain.items := by
  unfold isAlone
  rw [decide_eq_true_iff]
  constructor
  · intro self member
    exact chain.circle.not_alone (some item) (List.mem_map_of_mem member) self
  · intro outside
    exact (chain.alone item outside).1

theorem fresh (item : ω) (outside : item ∉ chain.items) :
    some item ∉ none :: chain.items.map some := by
  intro member
  rcases List.mem_cons.mp member with atHead | inside
  · cases atHead
  · obtain ⟨other, mem, same⟩ := List.mem_map.mp inside
    rw [Option.some.inj same] at mem
    exact outside mem

theorem next_head : chain.links.next none = nodeOf chain.items := by
  have next := path_next _ _ _ _ chain.circle.path
  rw [next]
  unfold nodeOf
  cases chain.items with
  | nil => rfl
  | cons item rest => rfl

theorem next_item (before after : List ω) (item : ω)
    (split : chain.items = before ++ item :: after) :
    chain.links.next (some item) = nodeOf after := by
  have circle := chain.circle
  rw [split, List.map_append, List.map_cons] at circle
  rw [circle.next_item]
  unfold nodeOf
  cases after with
  | nil => rfl
  | cons other rest => rfl

def addTail (item : ω) (isAlone : chain.isAlone item = true) : Chain ω :=
  { links := chain.links.insert (some item) (chain.links.prev none) none
    items := chain.items ++ [item]
    circle := by
      have outside := chain.fresh item ((chain.isAlone_iff item).mp isAlone)
      rw [List.map_append]
      exact chain.circle.insert_last (some item) outside
    alone := by
      intro other outside
      have notItem : other ≠ item := by
        intro same
        rw [same] at outside
        exact outside (List.mem_append_right _ List.mem_cons_self)
      have notOld : other ∉ chain.items := by
        intro member
        exact outside (List.mem_append_left _ member)
      exact chain.circle.alone_insert (some item) (some other)
        (chain.fresh item ((chain.isAlone_iff item).mp isAlone))
        (chain.fresh other notOld)
        (fun same => notItem (Option.some.inj same)) (chain.alone other notOld) }

theorem removed_circle (item : ω) :
    Circle (chain.links.remove (some item)) none
      ((chain.items.erase item).map some) := by
  by_cases inside : item ∈ chain.items
  · obtain ⟨before, after, split⟩ := List.append_of_mem inside
    have nodup := chain.nodup
    have circle := chain.circle
    rw [split] at nodup
    rw [split, List.map_append, List.map_cons] at circle
    have notBefore : item ∉ before := by
      intro member
      exact (List.nodup_append.mp nodup).2.2 item member item
        List.mem_cons_self rfl
    rw [split, List.erase_append_right _ notBefore, List.erase_cons_head,
      List.map_append]
    exact circle.remove_item
  · rw [remove_alone _ _ (chain.alone item inside),
      List.erase_of_not_mem inside]
    exact chain.circle

theorem removed_alone (item other : ω) (outside : other ∉ chain.items.erase item) :
    Alone (chain.links.remove (some item)) (some other) := by
  by_cases same : other = item
  · rw [same]
    exact alone_removed _ _
  · have notOld : other ∉ chain.items := by
      intro member
      exact outside ((List.mem_erase_of_ne same).mpr member)
    by_cases inside : item ∈ chain.items
    · obtain ⟨before, after, split⟩ := List.append_of_mem inside
      have circle := chain.circle
      have fresh := chain.fresh other notOld
      rw [split, List.map_append, List.map_cons] at circle fresh
      exact circle.alone_remove (some other) fresh (chain.alone other notOld)
    · rw [remove_alone _ _ (chain.alone item inside)]
      exact chain.alone other notOld

def remove (item : ω) : Chain ω :=
  { links := chain.links.remove (some item)
    items := chain.items.erase item
    circle := chain.removed_circle item
    alone := chain.removed_alone item }

@[simp] theorem addTail_items (item : ω) (isAlone : chain.isAlone item = true) :
    (chain.addTail item isAlone).items = chain.items ++ [item] := rfl

@[simp] theorem remove_items (item : ω) :
    (chain.remove item).items = chain.items.erase item := rfl

/-- Following the links from a node leads to every item behind it. -/
theorem next_iterate (before inner after : List ω) (item : ω)
    (split : chain.items = before ++ (inner ++ item :: after)) :
    chain.links.next^[inner.length] (nodeOf (inner ++ item :: after)) =
      some item := by
  induction inner generalizing before with
  | nil => rfl
  | cons first rest ih =>
      have next := chain.next_item before (rest ++ item :: after) first split
      rw [List.length_cons, Function.iterate_succ_apply]
      change chain.links.next^[rest.length] (chain.links.next (some first)) = _
      rw [next]
      apply ih (before ++ [first])
      rw [List.append_assoc]
      exact split

theorem mem_remove (item other : ω) : other ∈ (chain.remove item).items ↔
    other ≠ item ∧ other ∈ chain.items :=
  chain.nodup.mem_erase_iff

end Chain

end XR872.Chains
