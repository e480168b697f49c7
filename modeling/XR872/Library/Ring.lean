/-
Ring buffers with a read and a write index.

The ring keeps no count of its own: what it holds is a list of items, and the
write index is the read index plus their number, around the end. A store in
turn with a read keeps the items in order.
-/

import XR872.Library.Buffer

namespace XR872.Rings

open Buffers

variable {α : Type} {n : Nat}

structure Ring (α : Type) (n : Nat) where
  cells : Buffer α n
  ridx : Nat
  widx : Nat
deriving DecidableEq, Repr

def next (n index : Nat) : Nat := if n ≤ index + 1 then 0 else index + 1

namespace Ring

def start (cells : Buffer α n) : Ring α n := { cells, ridx := 0, widx := 0 }

/-- `none` is a store outside the cells. -/
def push (ring : Ring α n) (value : α) : Option (Ring α n) :=
  if within : ring.widx + [value].length ≤ n then
    some
      { ring with
        cells := ring.cells.store ring.widx [value] within
        widx := next n ring.widx }
  else none

def pushAll : Ring α n → List α → Option (Ring α n)
  | ring, [] => some ring
  | ring, value :: rest => do
      let ring ← ring.push value
      ring.pushAll rest

/-- `none` is a read outside the cells. -/
def front (ring : Ring α n) : Option α := ring.cells.cells[ring.ridx]?

def advance (ring : Ring α n) : Ring α n :=
  { ring with ridx := next n ring.ridx }

/-- The next `count` items. -/
def items (ring : Ring α n) : Nat → List α
  | 0 => []
  | count + 1 => ring.front.toList ++ ring.advance.items count

end Ring

/-! ### Held items -/

structure Holds (ring : Ring α n) (held : List α) : Prop where
  room : held.length ≤ n
  reads : ring.ridx = ring.ridx % n
  writes : ring.widx = (ring.ridx + held.length) % n
  content : ∀ index < held.length,
    ring.cells.cells[(ring.ridx + index) % n]? = held[index]?

theorem next_eq_mod (n index : Nat) (within : index < n) :
    next n index = (index + 1) % n := by
  unfold next
  by_cases last : n ≤ index + 1
  · have same : n = index + 1 := by omega
    rw [if_pos last, ← same, Nat.mod_self]
  · rw [if_neg last, Nat.mod_eq_of_lt (by omega)]

theorem mod_apart (n base left right : Nat) (near : left < n) (far : right < n)
    (same : (base + left) % n = (base + right) % n) : left = right := by
  have cancelled : left % n = right % n := Nat.ModEq.add_left_cancel' base same
  rw [Nat.mod_eq_of_lt near, Nat.mod_eq_of_lt far] at cancelled
  exact cancelled

theorem holds_start (cells : Buffer α n) : Holds (Ring.start cells) [] := by
  exact {
    room := Nat.zero_le n
    reads := (Nat.zero_mod n).symm
    writes := (Nat.zero_mod n).symm
    content := by
      intro index below
      exact absurd below (Nat.not_lt_zero index) }

theorem push_holds (ring : Ring α n) (held : List α) (value : α)
    (holds : Holds ring held) (free : held.length < n) :
    ∃ next, ring.push value = some next ∧ Holds next (held ++ [value]) := by
  have positive : 0 < n := by omega
  have below : ring.widx < n := by
    rw [holds.writes]
    exact Nat.mod_lt _ positive
  have within : ring.widx + [value].length ≤ n := below
  refine ⟨_, dif_pos within, ?_⟩
  exact {
    room := by
      rw [List.length_append, List.length_singleton]
      exact free
    reads := holds.reads
    writes := by
      change next n ring.widx = (ring.ridx + (held ++ [value]).length) % n
      rw [next_eq_mod n _ below, holds.writes, List.length_append,
        List.length_singleton, Nat.mod_add_mod, Nat.add_assoc]
    content := by
      intro index inside
      rw [List.length_append, List.length_singleton] at inside
      change (ring.cells.store ring.widx [value] within).cells[
        (ring.ridx + index) % n]? = (held ++ [value])[index]?
      by_cases last : index = held.length
      · have place : (ring.ridx + index) % n = ring.widx + 0 := by
          rw [last, holds.writes, Nat.add_zero]
        rw [place, Buffer.getElem?_store_inside _ _ _ _ _ (Nat.zero_lt_one),
          last, List.getElem?_concat_length]
        rfl
      · have old : index < held.length := by omega
        have apart : (ring.ridx + index) % n ≠ ring.widx := by
          intro same
          rw [holds.writes] at same
          exact last (mod_apart n _ _ _ (by omega) free same)
        rw [Buffer.getElem?_store_outside _ _ _ _ _
            (by rw [List.length_singleton]; omega),
          holds.content index old, List.getElem?_append_left old] }

theorem pushAll_holds (ring : Ring α n) (held values : List α)
    (holds : Holds ring held) (free : held.length + values.length ≤ n) :
    ∃ next, ring.pushAll values = some next ∧ Holds next (held ++ values) := by
  induction values generalizing ring held with
  | nil =>
      refine ⟨ring, rfl, ?_⟩
      rw [List.append_nil]
      exact holds
  | cons value rest ih =>
      rw [List.length_cons] at free
      obtain ⟨pushed, push, kept⟩ :=
        push_holds ring held value holds (by omega)
      obtain ⟨last, pushes, whole⟩ := ih pushed (held ++ [value]) kept
        (by rw [List.length_append, List.length_singleton]; omega)
      refine ⟨last, ?_, ?_⟩
      · rw [Ring.pushAll, push]
        exact pushes
      · rw [List.append_cons]
        exact whole

theorem front_holds (ring : Ring α n) (first : α) (rest : List α)
    (holds : Holds ring (first :: rest)) : ring.front = some first := by
  have place : (ring.ridx + 0) % n = ring.ridx := holds.reads.symm
  have found := holds.content 0 (Nat.zero_lt_succ _)
  rw [place] at found
  exact found

theorem advance_holds (ring : Ring α n) (first : α) (rest : List α)
    (holds : Holds ring (first :: rest)) : Holds ring.advance rest := by
  have room : rest.length + 1 ≤ n := holds.room
  have below : ring.ridx < n := by
    rw [holds.reads]
    exact Nat.mod_lt _ (by omega)
  have moved : ring.advance.ridx = (ring.ridx + 1) % n :=
    next_eq_mod n _ below
  exact {
    room := by omega
    reads := by rw [moved, Nat.mod_mod]
    writes := by
      have writes : ring.widx = (ring.ridx + (rest.length + 1)) % n :=
        holds.writes
      change ring.widx = _
      rw [moved, Nat.mod_add_mod, writes, Nat.add_assoc,
        Nat.add_comm 1 rest.length]
    content := by
      intro index inside
      have found := holds.content (index + 1) (Nat.succ_lt_succ inside)
      rw [List.getElem?_cons_succ] at found
      rw [moved, Nat.mod_add_mod, Nat.add_assoc, Nat.add_comm 1 index]
      exact found }

theorem items_holds (ring : Ring α n) (held : List α)
    (holds : Holds ring held) : ring.items held.length = held := by
  induction held generalizing ring with
  | nil => rfl
  | cons first rest ih =>
      rw [List.length_cons, Ring.items, front_holds ring first rest holds,
        ih ring.advance (advance_holds ring first rest holds)]
      rfl

/-! ### Indices -/

structure Inside (ring : Ring α n) : Prop where
  reads : ring.ridx < n
  writes : ring.widx < n

theorem next_below (n index : Nat) (within : index < n) :
    next n index < n := by
  rw [next_eq_mod n index within]
  exact Nat.mod_lt _ (by omega)

theorem inside_start (cells : Buffer α n) (room : 0 < n) :
    Inside (Ring.start cells) := by
  exact { reads := room, writes := room }

theorem push_inside (ring : Ring α n) (value : α) (inside : Inside ring) :
    ∃ next, ring.push value = some next ∧ Inside next := by
  have within : ring.widx + [value].length ≤ n := inside.writes
  refine ⟨_, dif_pos within, ?_⟩
  exact { reads := inside.reads, writes := next_below n _ inside.writes }

theorem pushAll_inside (ring : Ring α n) (values : List α)
    (inside : Inside ring) :
    ∃ next, ring.pushAll values = some next ∧ Inside next := by
  induction values generalizing ring with
  | nil => exact ⟨ring, rfl, inside⟩
  | cons value rest ih =>
      obtain ⟨pushed, push, kept⟩ := push_inside ring value inside
      obtain ⟨last, pushes, whole⟩ := ih pushed kept
      refine ⟨last, ?_, whole⟩
      rw [Ring.pushAll, push]
      exact pushes

theorem front_inside (ring : Ring α n) (inside : Inside ring) :
    ∃ first, ring.front = some first := by
  have present : ring.ridx < ring.cells.cells.length := by
    rw [ring.cells.size]
    exact inside.reads
  exact ⟨_, List.getElem?_eq_getElem present⟩

theorem advance_inside (ring : Ring α n) (inside : Inside ring) :
    Inside ring.advance := by
  exact { reads := next_below n _ inside.reads, writes := inside.writes }

end XR872.Rings
