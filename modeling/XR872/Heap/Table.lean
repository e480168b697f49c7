/-
The table of the heap's blocks.

What the three operations on the table do to it, and what the real allocator
does to the blocks it is about.
-/

import XR872.Heap.Trace

namespace XR872.Heap

open Slots

/-! ### Blocks -/

structure Disjoint (blocks : List Block) (requested : Ptr → Nat) : Prop where
  placed : ∀ block ∈ blocks, block.ptr ≠ 0 ∧
    block.ptr.toNat + requested block.ptr ≤ 2 ^ 32
  same : ∀ block ∈ blocks, ∀ other ∈ blocks, block.ptr = other.ptr →
    block = other
  apart : ∀ block ∈ blocks, ∀ other ∈ blocks, block.ptr ≠ other.ptr →
    block.ptr.toNat + requested block.ptr ≤ other.ptr.toNat ∨
      other.ptr.toNat + requested other.ptr ≤ block.ptr.toNat

/-- All but one block are apart from a new one. -/
structure Fresh (blocks : List Block) (requested : Ptr → Nat)
    (old answer : Ptr) (realSize : Nat) : Prop where
  notNull : answer ≠ 0
  inside : answer.toNat + realSize ≤ 2 ^ 32
  others : ∀ block ∈ blocks, block.ptr ≠ old → block.ptr ≠ answer ∧
    (block.ptr.toNat + requested block.ptr ≤ answer.toNat ∨
      answer.toNat + realSize ≤ block.ptr.toNat)

namespace Disjoint

variable {blocks : List Block} {requested : Ptr → Nat}

theorem free (disjoint : Disjoint blocks requested) (ptr : Ptr) :
    Disjoint (blocks.filter fun block => block.ptr ≠ ptr) requested where
  placed block isBlock :=
    disjoint.placed block (List.mem_filter.mp isBlock).1
  same block isBlock other isOther :=
    disjoint.same block (List.mem_filter.mp isBlock).1 other
      (List.mem_filter.mp isOther).1
  apart block isBlock other isOther :=
    disjoint.apart block (List.mem_filter.mp isBlock).1 other
      (List.mem_filter.mp isOther).1

/-- A block that is not among the others, with as much as is requested for
it. -/
theorem with_ (disjoint : Disjoint blocks requested) {old answer : Ptr}
    {realSize : Nat} (fresh : Fresh blocks requested old answer realSize)
    (new : Block) (at_ : new.ptr = answer) (result : List Block)
    (either : ∀ block ∈ result,
      block = new ∨ block ∈ blocks ∧ block.ptr ≠ old) :
    Disjoint result (Function.update requested answer realSize) := by
  have other : ∀ block ∈ blocks, block.ptr ≠ old →
      Function.update requested answer realSize block.ptr =
        requested block.ptr := fun block isBlock notOld =>
    Function.update_of_ne (fresh.others block isBlock notOld).1 ..
  have here : Function.update requested answer realSize new.ptr = realSize := by
    rw [at_, Function.update_self]
  constructor
  · intro block isBlock
    rcases either block isBlock with rfl | ⟨isBlock, notOld⟩
    · rw [here, at_]
      exact ⟨fresh.notNull, fresh.inside⟩
    · rw [other block isBlock notOld]
      exact disjoint.placed block isBlock
  · intro left isLeft right isRight same
    rcases either left isLeft with rfl | ⟨isLeft, leftNotOld⟩ <;>
      rcases either right isRight with rfl | ⟨isRight, rightNotOld⟩
    · rfl
    · rw [at_] at same
      exact absurd same.symm (fresh.others right isRight rightNotOld).1
    · rw [at_] at same
      exact absurd same (fresh.others left isLeft leftNotOld).1
    · exact disjoint.same left isLeft right isRight same
  · intro left isLeft right isRight differ
    rcases either left isLeft with rfl | ⟨isLeft, leftNotOld⟩ <;>
      rcases either right isRight with rfl | ⟨isRight, rightNotOld⟩
    · exact absurd rfl differ
    · rw [here, at_, other right isRight rightNotOld]
      exact (fresh.others right isRight rightNotOld).2.symm
    · rw [here, at_, other left isLeft leftNotOld]
      exact (fresh.others left isLeft leftNotOld).2
    · rw [other left isLeft leftNotOld, other right isRight rightNotOld]
      exact disjoint.apart left isLeft right isRight differ

end Disjoint

/-! ### The operations on the table -/

def taken (entry : HeapMem) : Nat := if entry.ptr = 0 then 0 else 1

def weight (entry : HeapMem) : Nat :=
  if entry.ptr = 0 then 0 else entry.size.toNat

structure Counted (mem : Nat → HeapMem) (entryCnt : Int) (emptyIdx : Nat)
    (sum : BitVec 32) : Prop where
  entryCnt : entryCnt = total taken heapMemMaxCnt mem
  sum : sum = BitVec.ofNat 32 (total weight heapMemMaxCnt mem)
  emptyIdx_le : emptyIdx ≤ heapMemMaxCnt
  noneBelow : ∀ index < emptyIdx, (mem index).ptr ≠ 0

theorem Counted.write {mem : Nat → HeapMem} {entryCnt : Int} {emptyIdx : Nat}
    {sum : BitVec 32} (counted : Counted mem entryCnt emptyIdx sum) {i : Nat}
    (within : i < heapMemMaxCnt) (entry : HeapMem) {newCnt : Int}
    {newIdx : Nat} {newSum : BitVec 32}
    (count : newCnt + taken (mem i) = entryCnt + taken entry)
    (sums : newSum + BitVec.ofNat 32 (weight (mem i)) =
      sum + BitVec.ofNat 32 (weight entry))
    (bound : newIdx ≤ heapMemMaxCnt)
    (noneBelow : ∀ index < newIdx,
      (Function.update mem i entry index).ptr ≠ 0) :
    Counted (Function.update mem i entry) newCnt newIdx newSum where
  entryCnt := by
    have totals := total_update taken within mem entry
    rw [counted.entryCnt] at count
    omega
  sum := by
    have totals := congrArg (BitVec.ofNat 32)
      (total_update weight within mem entry)
    rw [BitVec.ofNat_add, BitVec.ofNat_add, ← counted.sum, ← sums] at totals
    exact (add_right_cancel totals).symm
  emptyIdx_le := bound
  noneBelow := noneBelow

theorem taken_free {entry : HeapMem} (isFree : entry.ptr = 0) :
    taken entry = 0 ∧ weight entry = 0 :=
  ⟨if_pos isFree, if_pos isFree⟩

theorem taken_occupied {entry : HeapMem} (occupied : entry.ptr ≠ 0) :
    taken entry = 1 ∧ weight entry = entry.size.toNat :=
  ⟨if_neg occupied, if_neg occupied⟩

theorem ofNat_size (size : BitVec 32) : BitVec.ofNat 32 size.toNat = size := by
  rw [BitVec.ofNat_toNat, BitVec.setWidth_eq]

namespace HeapTrace

def Counts (t : HeapTrace) : Prop :=
  Counted t.mem t.entryCnt t.emptyIdx t.sum

structure TableOnly (t next : HeapTrace) : Prop where
  doReallocing : next.doReallocing = t.doReallocing
  blocks : next.blocks = t.blocks
  requested : next.requested = t.requested

def guardAt (t : HeapTrace) (ptr : Ptr) (size : BitVec 32) : Guard :=
  { offset := size.toNat, requested := t.requested ptr }

theorem full_iff (t : HeapTrace) :
    t.full = true ↔ ∀ index < heapMemMaxCnt, (t.mem index).ptr ≠ 0 := by
  unfold full
  rw [List.all_eq_true]
  constructor
  · intro all index within
    exact of_decide_eq_true (all index (List.mem_range.mpr within))
  · intro all index member
    exact decide_eq_true (all index (List.mem_range.mp member))

/-- A new entry goes to the first free slot; only a full table takes none. -/
theorem addEntry_cases (t : HeapTrace) (counts : t.Counts) {ptr : Ptr}
    (notNull : ptr ≠ 0) (size : BitVec 32) :
    TableOnly t (t.addEntry ptr size) ∧
      (t.addEntry ptr size).guards = t.guardAt ptr size :: t.guards ∧
      (t.addEntry ptr size).Counts ∧
      ((t.full = true ∧ (t.addEntry ptr size).mem = t.mem) ∨
        (t.full = false ∧ ∃ i < heapMemMaxCnt, (t.mem i).ptr = 0 ∧
          (t.addEntry ptr size).mem =
            Function.update t.mem i { ptr := ptr, size := size })) := by
  have first : t.emptyIdx ≤ heapMemMaxCnt := counts.emptyIdx_le
  cases result : search (fun entry => entry.ptr = 0) t.mem
      (heapMemMaxCnt - t.emptyIdx) t.emptyIdx with
  | none =>
      have same : t.addEntry ptr size = t.magic ptr size := by
        have missed : search (fun entry => entry.ptr = 0) (t.magic ptr size).mem
            (heapMemMaxCnt - (t.magic ptr size).emptyIdx)
            (t.magic ptr size).emptyIdx = none := result
        unfold addEntry
        dsimp only
        rw [missed]
      rw [same]
      refine ⟨⟨rfl, rfl, rfl⟩, rfl, counts, .inl ⟨?_, rfl⟩⟩
      rw [full_iff]
      intro index within
      by_cases below : index < t.emptyIdx
      · exact counts.noneBelow index below
      · exact of_decide_eq_false
          (search_eq_none result index (by omega) (by omega))
  | some i =>
      obtain ⟨from_, below, found, others⟩ := search_eq_some result
      have within : i < heapMemMaxCnt := by omega
      have isFree : (t.mem i).ptr = 0 := of_decide_eq_true found
      have notFull : t.full = false := by
        apply Bool.eq_false_iff.mpr
        intro isFull
        exact (t.full_iff.mp isFull) i within isFree
      have same : t.addEntry ptr size =
          (t.magic ptr size).fillEntry i ptr size := by
        have found : search (fun entry => entry.ptr = 0) (t.magic ptr size).mem
            (heapMemMaxCnt - (t.magic ptr size).emptyIdx)
            (t.magic ptr size).emptyIdx = some i := result
        unfold addEntry
        dsimp only
        rw [found]
      rw [same]
      refine ⟨⟨rfl, rfl, rfl⟩, rfl, ?_, .inr ⟨notFull, i, within, isFree, rfl⟩⟩
      apply Counted.write counts within
      · rw [(taken_free isFree).1, (taken_occupied notNull).1]
        exact Int.add_zero _
      · rw [(taken_free isFree).2, (taken_occupied notNull).2, ofNat_size]
        exact BitVec.add_zero _
      · exact within
      · intro index before
        have before : index < i + 1 := before
        by_cases here : index = i
        · rw [here, Function.update_self]
          exact notNull
        · rw [Function.update_of_ne here]
          by_cases low : index < t.emptyIdx
          · exact counts.noneBelow index low
          · exact of_decide_eq_false (others index (by omega) (by omega))

theorem deleteEntry_cases (t : HeapTrace) (counts : t.Counts) {ptr : Ptr}
    (notNull : ptr ≠ 0) :
    TableOnly t (t.deleteEntry ptr).2 ∧ (t.deleteEntry ptr).2.Counts ∧
      (((∀ index < heapMemMaxCnt, (t.mem index).ptr ≠ ptr) ∧
          (t.deleteEntry ptr).2.mem = t.mem ∧
          (t.deleteEntry ptr).2.guards = t.guards) ∨
        ∃ i < heapMemMaxCnt, (t.mem i).ptr = ptr ∧
          (t.deleteEntry ptr).2.mem =
            Function.update t.mem i { ptr := 0, size := 0 } ∧
          (t.deleteEntry ptr).2.guards =
            t.guardAt ptr (t.mem i).size :: t.guards) := by
  unfold deleteEntry
  cases result : search (fun entry => entry.ptr = ptr) t.mem heapMemMaxCnt 0
  with
  | none =>
      refine ⟨⟨rfl, rfl, rfl⟩, counts, .inl ⟨?_, rfl, rfl⟩⟩
      intro index within
      exact of_decide_eq_false
        (search_eq_none result index (Nat.zero_le _) (by omega))
  | some i =>
      obtain ⟨_, below, found, _⟩ := search_eq_some result
      have within : i < heapMemMaxCnt := by omega
      have here : (t.mem i).ptr = ptr := of_decide_eq_true found
      have occupied : (t.mem i).ptr ≠ 0 := by
        rw [here]
        exact notNull
      refine ⟨⟨rfl, rfl, rfl⟩, ?_, .inr ⟨i, within, here, rfl, rfl⟩⟩
      apply Counted.write counts within
      · rw [(taken_occupied occupied).1, (taken_free rfl).1]
        change t.entryCnt - 1 + 1 = t.entryCnt + 0
        omega
      · rw [(taken_occupied occupied).2, (taken_free rfl).2, ofNat_size]
        exact (BitVec.sub_add_cancel _ _).trans (BitVec.add_zero _).symm
      · have first : t.emptyIdx ≤ heapMemMaxCnt := counts.emptyIdx_le
        change (if i < t.emptyIdx then i else t.emptyIdx) ≤ _
        split <;> omega
      · intro index before
        change index < (if i < t.emptyIdx then i else t.emptyIdx) at before
        have other : index ≠ i ∧ index < t.emptyIdx := by
          split at before <;> omega
        rw [Function.update_of_ne other.1]
        exact counts.noneBelow index other.2

theorem updateEntry_cases (t : HeapTrace) (counts : t.Counts)
    {oldPtr newPtr : Ptr} (notNull : oldPtr ≠ 0) (new : newPtr ≠ 0)
    (newSize : BitVec 32) :
    TableOnly t (t.updateEntry oldPtr newPtr newSize).2 ∧
      (t.updateEntry oldPtr newPtr newSize).2.guards =
        t.guardAt newPtr newSize :: t.guards ∧
      (t.updateEntry oldPtr newPtr newSize).2.Counts ∧
      (((∀ index < heapMemMaxCnt, (t.mem index).ptr ≠ oldPtr) ∧
          (t.updateEntry oldPtr newPtr newSize).2.mem = t.mem) ∨
        ∃ i < heapMemMaxCnt, (t.mem i).ptr = oldPtr ∧
          (t.updateEntry oldPtr newPtr newSize).2.mem =
            Function.update t.mem i { ptr := newPtr, size := newSize }) := by
  cases result : search (fun entry => entry.ptr = oldPtr) t.mem heapMemMaxCnt 0
  with
  | none =>
      have same : (t.updateEntry oldPtr newPtr newSize).2 =
          t.magic newPtr newSize := by
        have missed : search (fun entry => entry.ptr = oldPtr)
            (t.magic newPtr newSize).mem heapMemMaxCnt 0 = none := result
        unfold updateEntry
        dsimp only
        rw [missed]
      rw [same]
      refine ⟨⟨rfl, rfl, rfl⟩, rfl, counts, .inl ⟨?_, rfl⟩⟩
      intro index within
      exact of_decide_eq_false
        (search_eq_none result index (Nat.zero_le _) (by omega))
  | some i =>
      obtain ⟨_, below, found, _⟩ := search_eq_some result
      have within : i < heapMemMaxCnt := by omega
      have here : (t.mem i).ptr = oldPtr := of_decide_eq_true found
      have occupied : (t.mem i).ptr ≠ 0 := by
        rw [here]
        exact notNull
      have same : (t.updateEntry oldPtr newPtr newSize).2 =
          (t.magic newPtr newSize).replaceEntry i newPtr newSize := by
        have found : search (fun entry => entry.ptr = oldPtr)
            (t.magic newPtr newSize).mem heapMemMaxCnt 0 = some i := result
        unfold updateEntry
        dsimp only
        rw [found]
      rw [same]
      refine ⟨⟨rfl, rfl, rfl⟩, rfl, ?_, .inr ⟨i, within, here, rfl⟩⟩
      apply Counted.write counts within
      · rw [(taken_occupied occupied).1, (taken_occupied new).1]
        rfl
      · rw [(taken_occupied occupied).2, (taken_occupied new).2, ofNat_size,
          ofNat_size]
        change t.sum - (t.mem i).size + newSize + (t.mem i).size = _
        rw [add_right_comm, BitVec.sub_add_cancel]
      · exact counts.emptyIdx_le
      · intro index before
        by_cases same : index = i
        · rw [same, Function.update_self]
          exact new
        · rw [Function.update_of_ne same]
          exact counts.noneBelow index before

end HeapTrace

end XR872.Heap
