/-
Bitmaps of bytes, most significant bit first.

Marking an index changes no other index, so a counter that goes up with every
first mark is the number of marked indexes.
-/

import XR872.Library.BitView
import XR872.Library.Buffer

namespace XR872.Bitmaps

open BitView
open Buffers

variable {n : Nat}

def bitMask (index : Nat) : Byte := 1#8 <<< (8 - index % 8 - 1)

def marked (bitmap : Buffer Byte n) (index : Nat) : Bool :=
  decide (0 < ((bitmap.cells.getD (index / 8) 0) &&& bitMask index).toNat)

def mark (bitmap : Buffer Byte n) (index : Nat) : Buffer Byte n :=
  bitmap.modify (index / 8) fun byte => byte ||| bitMask index

theorem getLsbD_bitMask (index bit : Nat) (within : bit < 8) :
    (bitMask index).getLsbD bit = decide (bit = 7 - index % 8) := by
  have place : 8 - index % 8 - 1 = 7 - index % 8 := by omega
  unfold bitMask
  rw [place, BitVec.getLsbD_shiftLeft, BitVec.getLsbD_one]
  by_cases same : bit = 7 - index % 8
  · rw [same]
    have below : 7 - index % 8 < 8 := by omega
    simp [below]
  · rcases Nat.lt_or_gt_of_ne same with low | high
    · simp [low, same]
    · have apart : ¬ bit - (7 - index % 8) = 0 := by omega
      simp [same, apart]

theorem and_bitMask_pos (byte : Byte) (index : Nat) :
    0 < (byte &&& bitMask index).toNat ↔
      byte.getLsbD (7 - index % 8) = true := by
  have place : 7 - index % 8 < 8 := by omega
  constructor
  · intro positive
    by_contra clear
    have zero : byte &&& bitMask index = 0#8 := by
      apply BitVec.eq_of_getLsbD_eq
      intro bit within
      rw [BitVec.getLsbD_and, getLsbD_bitMask index bit within]
      by_cases same : bit = 7 - index % 8
      · have off : byte.getLsbD (7 - index % 8) = false :=
          Bool.eq_false_iff.mpr clear
        rw [same, off]
        simp
      · simp [same]
    rw [zero] at positive
    contradiction
  · intro set
    by_contra zero
    have clear : byte &&& bitMask index = 0#8 :=
      BitVec.eq_of_toNat_eq (Nat.eq_zero_of_not_pos zero)
    have bit := congrArg (fun value => value.getLsbD (7 - index % 8)) clear
    rw [BitVec.getLsbD_and, getLsbD_bitMask index _ place, set] at bit
    simp at bit

theorem marked_eq (bitmap : Buffer Byte n) (index : Nat) :
    marked bitmap index =
      (bitmap.cells.getD (index / 8) 0).getLsbD (7 - index % 8) := by
  unfold marked
  rw [Bool.eq_iff_iff, decide_eq_true_iff]
  exact and_bitMask_pos _ index

theorem marked_mark (bitmap : Buffer Byte n) (index other : Nat)
    (inside : index / 8 < n) :
    marked (mark bitmap index) other =
      (marked bitmap other || decide (other = index)) := by
  have place : 7 - other % 8 < 8 := by omega
  rw [marked_eq, marked_eq]
  unfold mark
  rw [Buffer.modify_cells]
  simp only [List.getD_eq_getElem?_getD, List.getElem?_modify]
  by_cases byte : index / 8 = other / 8
  · have present : other / 8 < bitmap.cells.length := by
      rw [bitmap.size]
      omega
    have same : 7 - other % 8 = 7 - index % 8 ↔ other = index := by omega
    rw [List.getElem?_eq_getElem present]
    simp only [if_pos byte, Option.map_eq_map, Option.map_some,
      Option.getD_some, BitVec.getLsbD_or, getLsbD_bitMask index _ place, same]
  · have different : other ≠ index := by
      intro equal
      rw [equal] at byte
      exact byte rfl
    simp [byte, different]

theorem marked_fill (index : Nat) :
    marked (Buffer.fill n (0 : Byte)) index = false := by
  rw [marked_eq]
  unfold Buffer.fill
  rw [List.getD_eq_getElem?_getD, List.getElem?_replicate]
  split <;> simp

/-! ### The marked indexes -/

/-- The marked indexes below `count`. -/
def markedSet (bitmap : Buffer Byte n) (count : Nat) : Finset Nat :=
  (Finset.range count).filter fun index => marked bitmap index = true

theorem mem_markedSet (bitmap : Buffer Byte n) (count index : Nat) :
    index ∈ markedSet bitmap count ↔
      index < count ∧ marked bitmap index = true := by
  unfold markedSet
  rw [Finset.mem_filter, Finset.mem_range]

theorem markedSet_fill (count : Nat) :
    markedSet (Buffer.fill n (0 : Byte)) count = ∅ := by
  apply Finset.eq_empty_of_forall_notMem
  intro index member
  have set := ((mem_markedSet _ _ _).mp member).2
  rw [marked_fill] at set
  contradiction

theorem markedSet_mark (bitmap : Buffer Byte n) (index count : Nat)
    (inside : index / 8 < n) (below : index < count) :
    markedSet (mark bitmap index) count =
      insert index (markedSet bitmap count) := by
  apply Finset.ext
  intro other
  rw [Finset.mem_insert, mem_markedSet, mem_markedSet,
    marked_mark _ _ _ inside, Bool.or_eq_true, decide_eq_true_iff]
  constructor
  · intro both
    rcases both.2 with old | new
    · exact Or.inr ⟨both.1, old⟩
    · exact Or.inl new
  · intro either
    rcases either with new | old
    · exact ⟨new ▸ below, Or.inr new⟩
    · exact ⟨old.1, Or.inl old.2⟩

theorem card_markedSet_mark (bitmap : Buffer Byte n) (index count : Nat)
    (inside : index / 8 < n) (below : index < count)
    (fresh : marked bitmap index = false) :
    (markedSet (mark bitmap index) count).card =
      (markedSet bitmap count).card + 1 := by
  rw [markedSet_mark _ _ _ inside below, Finset.card_insert_of_notMem]
  intro member
  have set := ((mem_markedSet _ _ _).mp member).2
  rw [fresh] at set
  contradiction

end XR872.Bitmaps
