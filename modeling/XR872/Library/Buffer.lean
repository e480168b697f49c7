/-
Buffers of a fixed size.

A store carries the proof that it stays inside, so a buffer never changes its
size and every store outside is a case of its own in the code that makes it.
-/

import Mathlib

namespace XR872.Buffers

variable {α : Type} {n : Nat}

/-- `n` consecutive cells. -/
structure Buffer (α : Type) (n : Nat) where
  cells : List α
  size : cells.length = n
deriving DecidableEq, Repr

namespace Buffer

@[ext] theorem ext {left right : Buffer α n}
    (same : left.cells = right.cells) : left = right := by
  cases left
  cases right
  cases same
  rfl

def fill (n : Nat) (value : α) : Buffer α n :=
  { cells := List.replicate n value
    size := List.length_replicate }

/-- Overwrite the cells from `offset` on. -/
def store (buffer : Buffer α n) (offset : Nat) (data : List α)
    (within : offset + data.length ≤ n) : Buffer α n :=
  { cells :=
      buffer.cells.take offset ++ data ++
        buffer.cells.drop (offset + data.length)
    size := by
      have size := buffer.size
      simp only [List.length_append, List.length_take, List.length_drop]
      omega }

def modify (buffer : Buffer α n) (index : Nat) (change : α → α) : Buffer α n :=
  { cells := buffer.cells.modify index change
    size := by rw [List.length_modify, buffer.size] }

theorem modify_cells (buffer : Buffer α n) (index : Nat) (change : α → α) :
    (buffer.modify index change).cells = buffer.cells.modify index change := rfl

theorem store_cells (buffer : Buffer α n) (offset : Nat) (data : List α)
    (within : offset + data.length ≤ n) :
    (buffer.store offset data within).cells =
      buffer.cells.take offset ++
        (data ++ buffer.cells.drop (offset + data.length)) :=
  List.append_assoc ..

theorem getElem?_store_before (buffer : Buffer α n) (offset : Nat)
    (data : List α) (within : offset + data.length ≤ n) (index : Nat)
    (before : index < offset) :
    (buffer.store offset data within).cells[index]? = buffer.cells[index]? := by
  have size := buffer.size
  rw [store_cells, List.getElem?_append_left
    (by rw [List.length_take]; omega), List.getElem?_take_of_lt before]

theorem getElem?_store_inside (buffer : Buffer α n) (offset : Nat)
    (data : List α) (within : offset + data.length ≤ n) (index : Nat)
    (inside : index < data.length) :
    (buffer.store offset data within).cells[offset + index]? = data[index]? := by
  have size := buffer.size
  have front : (buffer.cells.take offset).length = offset := by
    rw [List.length_take]
    omega
  rw [store_cells, List.getElem?_append_right
    (by rw [front]; omega), front, Nat.add_sub_cancel_left,
    List.getElem?_append_left inside]

theorem getElem?_store_after (buffer : Buffer α n) (offset : Nat)
    (data : List α) (within : offset + data.length ≤ n) (index : Nat)
    (after : offset + data.length ≤ index) :
    (buffer.store offset data within).cells[index]? = buffer.cells[index]? := by
  have size := buffer.size
  have front : (buffer.cells.take offset).length = offset := by
    rw [List.length_take]
    omega
  rw [store_cells, List.getElem?_append_right (by rw [front]; omega),
    front, List.getElem?_append_right (by omega), List.getElem?_drop]
  congr 1
  omega

theorem store_all (buffer : Buffer α n) (data : List α)
    (within : 0 + data.length ≤ n) (all : data.length = n) :
    (buffer.store 0 data within).cells = data := by
  have size := buffer.size
  rw [store_cells, List.take_zero, List.nil_append, List.drop_of_length_le (by omega),
    List.append_nil]

theorem take_store (buffer : Buffer α n) (data : List α)
    (within : 0 + data.length ≤ n) :
    (buffer.store 0 data within).cells.take data.length = data := by
  rw [store_cells, List.take_zero, List.nil_append, List.take_left' rfl]

theorem store_nil (buffer : Buffer α n) (offset : Nat)
    (within : offset + ([] : List α).length ≤ n) :
    buffer.store offset [] within = buffer := by
  apply Buffer.ext
  rw [store_cells, List.nil_append, List.length_nil, Nat.add_zero,
    List.take_append_drop]

theorem getElem?_store_outside (buffer : Buffer α n) (offset : Nat)
    (data : List α) (within : offset + data.length ≤ n) (index : Nat)
    (outside : index < offset ∨ offset + data.length ≤ index) :
    (buffer.store offset data within).cells[index]? = buffer.cells[index]? := by
  rcases outside with before | after
  · exact getElem?_store_before buffer offset data within index before
  · exact getElem?_store_after buffer offset data within index after

end Buffer

end XR872.Buffers
