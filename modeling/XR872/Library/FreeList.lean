/-
Free ranges linked through the memory they lie in, in the order of their
addresses.

The list is walked from a node before its first range. A range put into it is
joined with the ranges that it touches; the list of the free blocks of a row
stays the list of the free blocks when a used block is given back.
-/

import XR872.Library.Arena

namespace XR872.FreeLists

open Arenas

variable {next size next' size' : Nat → Nat}

/-- From a node on, the ranges are linked in their order, and the last of them
to `stop`. -/
def Linked (next size : Nat → Nat) : Nat → List (Nat × Nat) → Nat → Prop
  | node, [], stop => next node = stop
  | node, place :: rest, stop =>
      next node = place.1 ∧ size place.1 = place.2 ∧
        Linked next size place.1 rest stop

def lastNode (node : Nat) (places : List (Nat × Nat)) : Nat :=
  (places.getLast?.map Prod.fst).getD node

@[simp] theorem lastNode_nil (node : Nat) : lastNode node [] = node := rfl

@[simp] theorem lastNode_concat (node : Nat) (places : List (Nat × Nat))
    (place : Nat × Nat) : lastNode node (places ++ [place]) = place.1 := by
  simp [lastNode]

theorem lastNode_cons (node : Nat) (place : Nat × Nat)
    (places : List (Nat × Nat)) :
    lastNode node (place :: places) = lastNode place.1 places := by
  cases List.eq_nil_or_concat places with
  | inl empty => simp [empty, lastNode]
  | inr concat =>
      obtain ⟨before, last, same⟩ := concat
      rw [same, List.concat_eq_append, ← List.cons_append, lastNode_concat,
        lastNode_concat]

theorem lastNode_mem (node : Nat) (places : List (Nat × Nat)) :
    lastNode node places = node ∨ lastNode node places ∈ places.map Prod.fst := by
  cases List.eq_nil_or_concat places with
  | inl empty => exact Or.inl (by rw [empty, lastNode_nil])
  | inr concat =>
      obtain ⟨before, last, same⟩ := concat
      right
      rw [same, List.concat_eq_append, lastNode_concat, List.map_append]
      simp

theorem lastNode_mem_cons (node : Nat) (places : List (Nat × Nat)) :
    lastNode node places ∈ node :: places.map Prod.fst := by
  cases lastNode_mem node places with
  | inl first => rw [first]; exact List.mem_cons_self
  | inr member => exact List.mem_cons_of_mem node member

def firstNode (places : List (Nat × Nat)) (stop : Nat) : Nat :=
  (places.head?.map Prod.fst).getD stop

@[simp] theorem firstNode_nil (stop : Nat) : firstNode [] stop = stop := rfl

@[simp] theorem firstNode_cons (place : Nat × Nat) (places : List (Nat × Nat))
    (stop : Nat) : firstNode (place :: places) stop = place.1 := rfl

theorem Linked.next_eq {node stop : Nat} {places : List (Nat × Nat)}
    (linked : Linked next size node places stop) :
    next node = firstNode places stop := by
  cases places with
  | nil => exact linked
  | cons place rest => exact linked.1

theorem linked_append (node stop : Nat) (left right : List (Nat × Nat)) :
    Linked next size node (left ++ right) stop ↔
      Linked next size node left (firstNode right stop) ∧
        Linked next size (lastNode node left) right stop := by
  induction left generalizing node with
  | nil =>
      constructor
      · intro linked
        exact ⟨linked.next_eq, linked⟩
      · intro both
        exact both.2
  | cons place rest ih =>
      rw [List.cons_append, Linked, Linked, ih, lastNode_cons]
      simp only [and_assoc]

theorem Linked.size_of_mem {node stop : Nat} {places : List (Nat × Nat)}
    (linked : Linked next size node places stop) (place : Nat × Nat)
    (member : place ∈ places) : size place.1 = place.2 := by
  induction places generalizing node with
  | nil => cases member
  | cons first rest ih =>
      cases List.mem_cons.mp member with
      | inl here => rw [here]; exact linked.2.1
      | inr later => exact ih linked.2.2 later

/-- The list depends on its own nodes only, and may be taken over by another
node before it. -/
theorem Linked.congr {node node' stop : Nat} {places : List (Nat × Nat)}
    (linked : Linked next size node places stop)
    (first : next' node' = next node)
    (same : ∀ place ∈ places,
      next' place.1 = next place.1 ∧ size' place.1 = size place.1) :
    Linked next' size' node' places stop := by
  induction places generalizing node node' with
  | nil => exact first.trans linked
  | cons place rest ih =>
      have here := same place List.mem_cons_self
      refine ⟨first.trans linked.1, here.2.trans linked.2.1, ?_⟩
      apply ih linked.2.2 here.1
      intro other member
      exact same other (List.mem_cons_of_mem place member)

theorem Linked.redirect {node stop stop' : Nat} {places : List (Nat × Nat)}
    (linked : Linked next size node places stop)
    (last : next' (lastNode node places) = stop')
    (nexts : ∀ other, other ≠ lastNode node places →
      (other = node ∨ other ∈ places.map Prod.fst) → next' other = next other)
    (sizes : ∀ place ∈ places, size' place.1 = size place.1)
    (distinct : (node :: places.map Prod.fst).Nodup) :
    Linked next' size' node places stop' := by
  induction places generalizing node with
  | nil => exact last
  | cons place rest ih =>
      rw [lastNode_cons] at last nexts
      rw [List.map_cons] at distinct
      have inner := (List.nodup_cons.mp distinct).2
      have notLast : node ≠ lastNode place.1 rest := by
        intro same
        apply (List.nodup_cons.mp distinct).1
        rw [same]
        cases lastNode_mem place.1 rest with
        | inl first => rw [first]; exact List.mem_cons_self
        | inr later => exact List.mem_cons_of_mem _ later
      refine ⟨(nexts node notLast (Or.inl rfl)).trans linked.1,
        (sizes place List.mem_cons_self).trans linked.2.1, ?_⟩
      apply ih linked.2.2 last
      · intro other differ here
        apply nexts other differ
        right
        rw [List.map_cons, List.mem_cons]
        exact here
      · intro other member
        exact sizes other (List.mem_cons_of_mem place member)
      · exact inner

/-! ### Putting a range into the list -/

def joinBehind (address size : Nat) : List (Nat × Nat) → List (Nat × Nat)
  | place :: rest =>
      if address + size = place.1 then (address, size + place.2) :: rest
      else (address, size) :: place :: rest
  | [] => [(address, size)]

@[simp] theorem firstNode_joinBehind (address size stop : Nat)
    (right : List (Nat × Nat)) :
    firstNode (joinBehind address size right) stop = address := by
  cases right with
  | nil => rfl
  | cons place rest =>
      rw [joinBehind]
      split <;> rfl

/-- Behind a node that links to a range, the list with the range joined with
what it touches. -/
theorem joinBehind_linked {node before address length stop : Nat} {right : List (Nat × Nat)}
    (linked : Linked next size before right stop)
    (first : next' node = address)
    (same : ∀ place ∈ right,
      next' place.1 = next place.1 ∧ size' place.1 = size place.1)
    (touches : address + length = firstNode right stop → right ≠ [] →
      next' address = next (firstNode right stop) ∧
        size' address = length + size (firstNode right stop))
    (apart : address + length ≠ firstNode right stop ∨ right = [] →
      next' address = firstNode right stop ∧ size' address = length) :
    Linked next' size' node (joinBehind address length right) stop := by
  cases right with
  | nil =>
      have own := apart (Or.inr rfl)
      exact ⟨first, own.2, own.1⟩
  | cons place rest =>
      rw [firstNode_cons] at touches apart
      have later (other : Nat × Nat) (member : other ∈ rest) :=
        same other (List.mem_cons_of_mem place member)
      by_cases touch : address + length = place.1
      · have own := touches touch (List.cons_ne_nil place rest)
        rw [joinBehind, if_pos touch]
        refine ⟨first, ?_, linked.2.2.congr own.1 later⟩
        rw [own.2, linked.2.1]
      · have own := apart (Or.inl touch)
        have here := same place List.mem_cons_self
        rw [joinBehind, if_neg touch]
        exact ⟨first, own.2, own.1, here.2.trans linked.2.1,
          linked.2.2.congr here.1 later⟩

def join (left : List (Nat × Nat)) (address size : Nat)
    (right : List (Nat × Nat)) : List (Nat × Nat) :=
  match left.getLast? with
  | some place =>
      if place.1 + place.2 = address then
        left.dropLast ++ joinBehind place.1 (place.2 + size) right
      else left ++ joinBehind address size right
  | none => joinBehind address size right

theorem join_concat (left : List (Nat × Nat)) (place : Nat × Nat)
    (address size : Nat) (right : List (Nat × Nat)) :
    join (left ++ [place]) address size right =
      if place.1 + place.2 = address then
        left ++ joinBehind place.1 (place.2 + size) right
      else left ++ place :: joinBehind address size right := by
  unfold join
  rw [List.getLast?_concat, List.dropLast_concat, List.append_assoc]
  rfl

/-- A range that touches nothing before it is joined with nothing before it. -/
theorem join_apart (left : List (Nat × Nat)) (address size : Nat)
    (right : List (Nat × Nat))
    (apart : ∀ place ∈ left, place.1 + place.2 ≠ address) :
    join left address size right = left ++ joinBehind address size right := by
  cases List.eq_nil_or_concat left with
  | inl empty => rw [empty]; rfl
  | inr concat =>
      obtain ⟨before, place, same⟩ := concat
      rw [List.concat_eq_append] at same
      rw [same] at apart ⊢
      rw [join_concat, if_neg (apart place (by simp)), List.append_assoc]
      rfl

theorem joinBehind_apart (address size : Nat) (right : List (Nat × Nat))
    (apart : ∀ place ∈ right, address + size ≠ place.1) :
    joinBehind address size right = (address, size) :: right := by
  cases right with
  | nil => rfl
  | cons place rest => exact if_neg (apart place List.mem_cons_self)

theorem free_absorb (address size : Nat) (right : List Block)
    (filled : Filled right) :
    places false address (absorb size right) =
      joinBehind address size (places false (address + size) right) := by
  induction right using absorb_cases with
  | nil => simp [joinBehind]
  | free more blocks => simp [joinBehind, Nat.add_assoc]
  | used more blocks =>
      rw [filled_cons] at filled
      have positive := filled.1
      rw [absorb_used, places_cons_same, places_cons_used, joinBehind_apart]
      intro place member
      have within := places_within member
      dsimp only at positive
      omega

theorem free_release (base : Nat) (left : List Block) (size : Nat)
    (right : List Block) (before : Filled left) (behind : Filled right) :
    places false base (release left size right) =
      join (places false base left) (base + total left) size
        (places false (base + total left + size) right) := by
  induction left using row_cases with
  | nil =>
      rw [release_nil, free_absorb base size right behind]
      rfl
  | free blocks more =>
      rw [release_free, places_append, free_absorb _ _ right behind,
        places_append, places_cons_same, places_nil, join_concat, if_pos]
      · simp [Nat.add_assoc]
      · simp [Nat.add_assoc]
  | used blocks more =>
      rw [filled_append, filled_cons] at before
      have positive := before.2.1
      dsimp only at positive
      have none_before : places false base (blocks ++ [⟨more, true⟩]) =
          places false base blocks := by
        simp [places_append]
      rw [none_before, join_apart, release_used, places_append,
        places_cons_used, free_absorb _ _ right behind]
      · simp [Nat.add_assoc]
      · intro place member
        have within := places_within member
        simp only [total_append, total_cons, total_nil]
        omega

end XR872.FreeLists
