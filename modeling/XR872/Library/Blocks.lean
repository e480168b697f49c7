/-
A stream cut into blocks of one size.

The blocks that are full, and the rest that does not fill another one. What is
appended to a stream is cut together with its rest.
-/

import Mathlib

namespace XR872.Blocks

variable {α : Type} (size : Nat)

def full (stream : List α) : List (List α) :=
  (List.range (stream.length / size)).map fun index =>
    (stream.drop (size * index)).take size

def rest (stream : List α) : List α :=
  stream.drop (size * (stream.length / size))

@[simp] theorem length_full (stream : List α) :
    (full size stream).length = stream.length / size := by
  simp [full]

theorem length_rest (stream : List α) :
    (rest size stream).length = stream.length % size := by
  have split := Nat.div_add_mod stream.length size
  unfold rest
  rw [List.length_drop]
  omega

variable {size}

theorem mem_full (stream block : List α) (member : block ∈ full size stream) :
    block.length = size := by
  obtain ⟨index, inside, cut⟩ := List.mem_map.mp member
  have within := List.mem_range.mp inside
  have room : size * (index + 1) ≤ stream.length := by
    calc size * (index + 1) ≤ size * (stream.length / size) :=
          Nat.mul_le_mul_left size within
      _ ≤ stream.length := Nat.mul_div_le _ _
  rw [← cut, List.length_take, List.length_drop]
  rw [Nat.mul_succ] at room
  omega

theorem full_short (stream : List α) (short : stream.length < size) :
    full size stream = [] := by
  unfold full
  rw [Nat.div_eq_of_lt short]
  rfl

theorem rest_short (stream : List α) (short : stream.length < size) :
    rest size stream = stream := by
  unfold rest
  rw [Nat.div_eq_of_lt short]
  rfl

variable (positive : 0 < size)

include positive

theorem full_block (block more : List α) (whole : block.length = size) :
    full size (block ++ more) = block :: full size more := by
  have count : (block ++ more).length / size = more.length / size + 1 := by
    rw [List.length_append, whole, Nat.add_comm, Nat.add_div_right _ positive]
  unfold full
  rw [count, List.range_succ_eq_map, List.map_cons, List.map_map]
  congr 1
  · rw [Nat.mul_zero, List.drop_zero, ← whole, List.take_left' rfl]
  · apply List.map_congr_left
    intro index _
    change ((block ++ more).drop (size * (index + 1))).take size = _
    rw [Nat.mul_succ, Nat.add_comm, ← List.drop_drop, ← whole,
      List.drop_left' rfl]

theorem rest_block (block more : List α) (whole : block.length = size) :
    rest size (block ++ more) = rest size more := by
  have count : (block ++ more).length / size = more.length / size + 1 := by
    rw [List.length_append, whole, Nat.add_comm, Nat.add_div_right _ positive]
  unfold rest
  rw [count, Nat.mul_succ, Nat.add_comm, ← List.drop_drop]
  congr 1
  rw [← whole, List.drop_left' rfl]

theorem flatten_full (stream : List α) :
    (full size stream).flatten ++ rest size stream = stream := by
  induction steps : stream.length / size generalizing stream with
  | zero =>
      have short : stream.length < size := by
        rcases Nat.div_eq_zero_iff.mp steps with none | short
        · omega
        · exact short
      rw [full_short stream short, rest_short stream short]
      rfl
  | succ count ih =>
      have long : size ≤ stream.length := by
        by_contra short
        rw [Nat.div_eq_of_lt (by omega)] at steps
        cases steps
      have whole : (stream.take size).length = size := by
        rw [List.length_take]
        omega
      have fewer : (stream.drop size).length / size = count := by
        have counted := Nat.add_div_left (stream.length - size) positive
        rw [Nat.add_sub_cancel' long, steps] at counted
        rw [List.length_drop]
        omega
      have split := List.take_append_drop size stream
      conv_lhs => rw [← split]
      rw [full_block positive _ _ whole, rest_block positive _ _ whole,
        List.flatten_cons, List.append_assoc, ih _ fewer]
      exact split

theorem full_blocks (blocks : List (List α)) (more : List α)
    (whole : ∀ block ∈ blocks, block.length = size) :
    full size (blocks.flatten ++ more) = blocks ++ full size more := by
  induction blocks with
  | nil => rfl
  | cons block blocks ih =>
      rw [List.flatten_cons, List.append_assoc,
        full_block positive _ _ (whole block List.mem_cons_self),
        ih fun other member => whole other (List.mem_cons_of_mem _ member)]
      rfl

theorem rest_blocks (blocks : List (List α)) (more : List α)
    (whole : ∀ block ∈ blocks, block.length = size) :
    rest size (blocks.flatten ++ more) = rest size more := by
  induction blocks with
  | nil => rfl
  | cons block blocks ih =>
      rw [List.flatten_cons, List.append_assoc,
        rest_block positive _ _ (whole block List.mem_cons_self),
        ih fun other member => whole other (List.mem_cons_of_mem _ member)]

theorem full_append (stream more : List α) :
    full size (stream ++ more) =
      full size stream ++ full size (rest size stream ++ more) := by
  conv_lhs => rw [← flatten_full positive stream]
  rw [List.append_assoc]
  exact full_blocks positive _ _ fun block member =>
    mem_full stream block member

theorem rest_append (stream more : List α) :
    rest size (stream ++ more) = rest size (rest size stream ++ more) := by
  conv_lhs => rw [← flatten_full positive stream]
  rw [List.append_assoc]
  exact rest_blocks positive _ _ fun block member =>
    mem_full stream block member

end XR872.Blocks
