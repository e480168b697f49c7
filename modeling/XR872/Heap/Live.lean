/-
The table names the blocks there are.

A block is created, moved or destroyed together with its entry, if it has one.
-/

import XR872.Heap.Table

namespace XR872.Heap

open Slots

namespace HeapTrace

structure Named (t : HeapTrace) : Prop where
  named : ∀ i < heapMemMaxCnt, (t.mem i).ptr ≠ 0 →
    ∃ block ∈ t.blocks, block.ptr = (t.mem i).ptr ∧
      block.size = (t.mem i).size
  distinct : ∀ i < heapMemMaxCnt, ∀ j < heapMemMaxCnt, (t.mem i).ptr ≠ 0 →
    (t.mem i).ptr = (t.mem j).ptr → i = j
  untraced : ∀ block ∈ t.blocks, block.bornFull = true ↔
    ∀ i < heapMemMaxCnt, (t.mem i).ptr ≠ block.ptr
  room : ∀ i < heapMemMaxCnt, (t.mem i).ptr ≠ 0 →
    (t.mem i).size.toNat + 4 ≤ t.requested (t.mem i).ptr

structure Kept (t : HeapTrace) : Prop where
  counts : t.Counts
  disjoint : Disjoint t.blocks t.requested
  named : t.Named
  guards : ∀ guard ∈ t.guards, guard.offset + 4 ≤ guard.requested

namespace Kept

variable {t next : HeapTrace}

theorem not_traced (kept : t.Kept) {old answer : Ptr} {realSize : Nat}
    (fresh : Fresh t.blocks t.requested old answer realSize) (i : Nat)
    (within : i < heapMemMaxCnt) (notOld : (t.mem i).ptr ≠ old)
    (occupied : (t.mem i).ptr ≠ 0) : (t.mem i).ptr ≠ answer := by
  obtain ⟨block, isBlock, same, _⟩ := kept.named.named i within occupied
  rw [← same] at notOld ⊢
  exact (fresh.others block isBlock notOld).1

/-- An entry is written for a block, and the others are as they were. -/
theorem entered (kept : t.Kept) {answer : Ptr} {size : BitVec 32} {i : Nat}
    (within : i < heapMemMaxCnt)
    (mem : next.mem = Function.update t.mem i { ptr := answer, size := size })
    (notAnswer : ∀ j < heapMemMaxCnt, j ≠ i → (t.mem j).ptr ≠ answer)
    (others : ∀ j < heapMemMaxCnt, j ≠ i → (t.mem j).ptr ≠ 0 →
      (∃ block ∈ next.blocks, block.ptr = (t.mem j).ptr ∧
        block.size = (t.mem j).size) ∧
      (t.mem j).size.toNat + 4 ≤ next.requested (t.mem j).ptr)
    (arrives : ∃ block ∈ next.blocks, block.ptr = answer ∧ block.size = size)
    (fits : size.toNat + 4 ≤ next.requested answer)
    (blocks : ∀ block ∈ next.blocks,
      block.ptr = answer ∧ block.bornFull = false ∨
        block ∈ t.blocks ∧ block.ptr ≠ (t.mem i).ptr ∧ block.ptr ≠ answer) :
    next.Named := by
  constructor
  · rw [mem]
    intro j below isOccupied
    by_cases here : j = i
    · rw [here, Function.update_self]
      exact arrives
    · rw [Function.update_of_ne here] at isOccupied ⊢
      exact (others j below here isOccupied).1
  · rw [mem]
    intro j below k under isOccupied same
    by_cases first : j = i <;> by_cases second : k = i
    · rw [first, second]
    · rw [first, Function.update_self, Function.update_of_ne second] at same
      exact absurd same.symm (notAnswer k under second)
    · rw [second, Function.update_self, Function.update_of_ne first] at same
      exact absurd same (notAnswer j below first)
    · rw [Function.update_of_ne first] at isOccupied same
      rw [Function.update_of_ne second] at same
      exact kept.named.distinct j below k under isOccupied same
  · rw [mem]
    intro block isBlock
    rcases blocks block isBlock with ⟨isNew, traced⟩ | ⟨isOld, other, different⟩
    · rw [traced]
      apply iff_of_false Bool.false_ne_true
      intro untraced
      apply untraced i within
      rw [Function.update_self]
      exact isNew.symm
    · rw [kept.named.untraced block isOld]
      apply forall₂_congr
      intro j below
      by_cases here : j = i
      · rw [here, Function.update_self]
        exact iff_of_true other.symm different.symm
      · rw [Function.update_of_ne here]
  · rw [mem]
    intro j below isOccupied
    by_cases here : j = i
    · rw [here, Function.update_self]
      exact fits
    · rw [Function.update_of_ne here] at isOccupied ⊢
      exact (others j below here isOccupied).2

theorem created (kept : t.Kept) {answer : Ptr} {size : BitVec 32}
    {realSize : Nat} (fresh : Fresh t.blocks t.requested 0 answer realSize)
    (fits : size.toNat + 4 ≤ realSize)
    (blocks : next.blocks =
      { ptr := answer, size := size, bornFull := t.full } :: t.blocks)
    (requested : next.requested = Function.update t.requested answer realSize)
    (counts : next.Counts)
    (guards : next.guards =
      { offset := size.toNat, requested := realSize } :: t.guards)
    (entry : (t.full = true ∧ next.mem = t.mem) ∨
      (t.full = false ∧ ∃ i < heapMemMaxCnt, (t.mem i).ptr = 0 ∧
        next.mem = Function.update t.mem i { ptr := answer, size := size })) :
    next.Kept := by
  have notTraced := fun i within occupied =>
    kept.not_traced fresh i within occupied occupied
  have old : ∀ i < heapMemMaxCnt, (t.mem i).ptr ≠ 0 →
      (t.mem i).size.toNat + 4 ≤ next.requested (t.mem i).ptr := by
    intro i within occupied
    rw [requested, Function.update_of_ne (notTraced i within occupied)]
    exact kept.named.room i within occupied
  have oldBlock : ∀ block ∈ t.blocks, block.ptr ≠ answer :=
    fun block isBlock => (fresh.others block isBlock
      (kept.disjoint.placed block isBlock).1).1
  refine ⟨counts, ?_, ?_, ?_⟩
  · rw [blocks, requested]
    apply kept.disjoint.with_ fresh
      { ptr := answer, size := size, bornFull := t.full } rfl
    intro block isBlock
    rcases List.mem_cons.mp isBlock with new | isBlock
    · exact .inl new
    · exact .inr ⟨isBlock, (kept.disjoint.placed block isBlock).1⟩
  · rcases entry with ⟨isFull, mem⟩ | ⟨notFull, i, within, isFree, mem⟩
    · constructor
      · intro i within occupied
        rw [mem] at occupied ⊢
        obtain ⟨block, isBlock, same⟩ := kept.named.named i within occupied
        rw [blocks]
        exact ⟨block, List.mem_cons_of_mem _ isBlock, same⟩
      · rw [mem]
        exact kept.named.distinct
      · rw [blocks, mem]
        intro block isBlock
        rcases List.mem_cons.mp isBlock with rfl | isBlock
        · dsimp only
          apply iff_of_true isFull
          intro i within
          exact notTraced i within (t.full_iff.mp isFull i within)
        · exact kept.named.untraced block isBlock
      · rw [mem]
        exact old
    · refine kept.entered within mem ?_ ?_ ?_ ?_ ?_
      · intro j below _
        by_cases isOccupied : (t.mem j).ptr = 0
        · rw [isOccupied]
          exact fresh.notNull.symm
        · exact notTraced j below isOccupied
      · intro j below _ isOccupied
        obtain ⟨block, isBlock, same⟩ := kept.named.named j below isOccupied
        rw [blocks]
        exact ⟨⟨block, List.mem_cons_of_mem _ isBlock, same⟩,
          old j below isOccupied⟩
      · rw [blocks]
        exact ⟨_, List.mem_cons_self, rfl, rfl⟩
      · rw [requested, Function.update_self]
        exact fits
      · rw [blocks, isFree]
        intro block isBlock
        rcases List.mem_cons.mp isBlock with rfl | isBlock
        · refine .inl ⟨rfl, ?_⟩
          dsimp only
          exact notFull
        · exact .inr ⟨isBlock, (kept.disjoint.placed block isBlock).1,
            oldBlock block isBlock⟩
  · rw [guards]
    intro guard isGuard
    rcases List.mem_cons.mp isGuard with rfl | isGuard
    · exact fits
    · exact kept.guards guard isGuard

theorem destroyed (kept : t.Kept) {ptr : Ptr}
    (blocks : next.blocks = t.blocks.filter fun block => block.ptr ≠ ptr)
    (requested : next.requested = t.requested) (counts : next.Counts)
    (entry : ((∀ i < heapMemMaxCnt, (t.mem i).ptr ≠ ptr) ∧
        next.mem = t.mem ∧ next.guards = t.guards) ∨
      ∃ i < heapMemMaxCnt, (t.mem i).ptr = ptr ∧ (t.mem i).ptr ≠ 0 ∧
        next.mem = Function.update t.mem i { ptr := 0, size := 0 } ∧
        next.guards =
          { offset := (t.mem i).size.toNat
            requested := t.requested ptr } :: t.guards) :
    next.Kept := by
  have isLeft : ∀ block, block ∈ next.blocks ↔
      block ∈ t.blocks ∧ block.ptr ≠ ptr := by
    intro block
    rw [blocks, List.mem_filter, decide_eq_true_iff]
  refine ⟨counts, ?_, ?_, ?_⟩
  · rw [blocks, requested]
    exact kept.disjoint.free ptr
  · rcases entry with ⟨missed, mem, _⟩ | ⟨i, within, here, occupied, mem, _⟩
    · constructor
      · rw [mem]
        intro i within occupied
        obtain ⟨block, isBlock, same, size⟩ :=
          kept.named.named i within occupied
        exact ⟨block, (isLeft block).mpr
          ⟨isBlock, same ▸ missed i within⟩, same, size⟩
      · rw [mem]
        exact kept.named.distinct
      · rw [mem]
        intro block isBlock
        exact kept.named.untraced block ((isLeft block).mp isBlock).1
      · rw [mem, requested]
        exact kept.named.room
    · have others : ∀ j < heapMemMaxCnt, j ≠ i → (t.mem j).ptr ≠ 0 →
          (t.mem j).ptr ≠ ptr := by
        intro j below differ occupied same
        exact differ (kept.named.distinct j below i within occupied
          (same.trans here.symm))
      constructor
      · rw [mem]
        intro j below isOccupied
        by_cases same : j = i
        · rw [same, Function.update_self] at isOccupied
          exact absurd rfl isOccupied
        · rw [Function.update_of_ne same] at isOccupied ⊢
          obtain ⟨block, isBlock, ptr, size⟩ :=
            kept.named.named j below isOccupied
          exact ⟨block, (isLeft block).mpr
            ⟨isBlock, ptr ▸ others j below same isOccupied⟩, ptr, size⟩
      · rw [mem]
        intro j below k under isOccupied same
        by_cases first : j = i
        · rw [first, Function.update_self] at isOccupied
          exact absurd rfl isOccupied
        · rw [Function.update_of_ne first] at isOccupied same
          by_cases second : k = i
          · rw [second, Function.update_self] at same
            exact absurd same isOccupied
          · rw [Function.update_of_ne second] at same
            exact kept.named.distinct j below k under isOccupied same
      · rw [mem]
        intro block isBlock
        obtain ⟨isBlock, other⟩ := (isLeft block).mp isBlock
        rw [kept.named.untraced block isBlock]
        apply forall₂_congr
        intro j below
        by_cases same : j = i
        · rw [same, Function.update_self, here]
          exact iff_of_true other.symm
            (kept.disjoint.placed block isBlock).1.symm
        · rw [Function.update_of_ne same]
      · rw [mem, requested]
        intro j below isOccupied
        by_cases same : j = i
        · rw [same, Function.update_self] at isOccupied
          exact absurd rfl isOccupied
        · rw [Function.update_of_ne same] at isOccupied ⊢
          exact kept.named.room j below isOccupied
  · rcases entry with ⟨_, _, guards⟩ | ⟨i, within, here, occupied, _, guards⟩
    · rw [guards]
      exact kept.guards
    · rw [guards]
      intro guard isGuard
      rcases List.mem_cons.mp isGuard with rfl | isGuard
      · rw [← here]
        exact kept.named.room i within occupied
      · exact kept.guards guard isGuard

/-- A block has moved, if only to where it was, and its entry with it. -/
theorem moved (kept : t.Kept) {ptr answer : Ptr} {size : BitVec 32}
    {realSize : Nat} (fresh : Fresh t.blocks t.requested ptr answer realSize)
    (blocks : next.blocks = t.blocks.map fun (block : Block) =>
      if block.ptr = ptr then { block with ptr := answer, size := size }
      else block)
    (requested : next.requested = Function.update t.requested answer realSize)
    (counts : next.Counts)
    (guards : ∀ guard ∈ next.guards, guard.offset + 4 ≤ guard.requested)
    (live : t.Live ptr)
    (entry : ((∀ i < heapMemMaxCnt, (t.mem i).ptr ≠ ptr) ∧
        next.mem = t.mem) ∨
      size.toNat + 4 ≤ realSize ∧
        ∃ i < heapMemMaxCnt, (t.mem i).ptr = ptr ∧ (t.mem i).ptr ≠ 0 ∧
          next.mem =
            Function.update t.mem i { ptr := answer, size := size }) :
    next.Kept := by
  obtain ⟨moving, isMoving, at_⟩ := live
  have isBlock : ∀ block, block ∈ next.blocks →
      block = { moving with ptr := answer, size := size } ∨
        block ∈ t.blocks ∧ block.ptr ≠ ptr := by
    intro block member
    rw [blocks, List.mem_map] at member
    obtain ⟨old, isOld, rfl⟩ := member
    by_cases here : old.ptr = ptr
    · left
      rw [if_pos here, kept.disjoint.same old isOld moving isMoving
        (here.trans at_.symm)]
    · rw [if_neg here]
      exact .inr ⟨isOld, here⟩
  have stays : ∀ block ∈ t.blocks, block.ptr ≠ ptr → block ∈ next.blocks := by
    intro block isOld other
    rw [blocks, List.mem_map]
    exact ⟨block, isOld, if_neg other⟩
  have arrives : { moving with ptr := answer, size := size } ∈ next.blocks := by
    rw [blocks, List.mem_map]
    exact ⟨moving, isMoving, if_pos at_⟩
  have old : ∀ i < heapMemMaxCnt, (t.mem i).ptr ≠ 0 → (t.mem i).ptr ≠ ptr →
      (∃ block ∈ next.blocks, block.ptr = (t.mem i).ptr ∧
        block.size = (t.mem i).size) ∧
      (t.mem i).size.toNat + 4 ≤ next.requested (t.mem i).ptr := by
    intro i within occupied other
    obtain ⟨block, isOld, same, size⟩ := kept.named.named i within occupied
    refine ⟨⟨block, stays block isOld (same ▸ other), same, size⟩, ?_⟩
    rw [requested, Function.update_of_ne
      (kept.not_traced fresh i within other occupied)]
    exact kept.named.room i within occupied
  refine ⟨counts, ?_, ?_, guards⟩
  · rw [requested]
    exact kept.disjoint.with_ fresh
      { moving with ptr := answer, size := size } rfl _ isBlock
  · rcases entry with ⟨missed, mem⟩ | ⟨fits, i, within, here, occupied, mem⟩
    · constructor
      · rw [mem]
        intro i within occupied
        exact (old i within occupied (missed i within)).1
      · rw [mem]
        exact kept.named.distinct
      · rw [mem]
        intro block member
        rcases isBlock block member with rfl | ⟨isOld, _⟩
        · have untraced := (kept.named.untraced moving isMoving).mpr
            (at_ ▸ missed)
          apply iff_of_true untraced
          intro i within
          by_cases occupied : (t.mem i).ptr = 0
          · rw [occupied]
            exact fresh.notNull.symm
          · exact kept.not_traced fresh i within (missed i within) occupied
        · exact kept.named.untraced block isOld
      · rw [mem]
        intro i within occupied
        exact (old i within occupied (missed i within)).2
    · have others : ∀ j < heapMemMaxCnt, j ≠ i → (t.mem j).ptr ≠ 0 →
          (t.mem j).ptr ≠ ptr := by
        intro j below differ occupied same
        exact differ (kept.named.distinct j below i within occupied
          (same.trans here.symm))
      have notAnswer : ∀ j < heapMemMaxCnt, j ≠ i → (t.mem j).ptr ≠ answer := by
        intro j below differ
        by_cases occupied : (t.mem j).ptr = 0
        · rw [occupied]
          exact fresh.notNull.symm
        · exact kept.not_traced fresh j below
            (others j below differ occupied) occupied
      have traced : moving.bornFull = false := by
        rw [← Bool.not_eq_true]
        intro bornFull
        exact (kept.named.untraced moving isMoving).mp bornFull i within
          (here.trans at_.symm)
      refine kept.entered within mem notAnswer ?_ ?_ ?_ ?_
      · intro j below differ isOccupied
        exact old j below isOccupied (others j below differ isOccupied)
      · exact ⟨_, arrives, rfl, rfl⟩
      · rw [requested, Function.update_self]
        exact fits
      · intro block member
        rcases isBlock block member with rfl | ⟨isOld, other⟩
        · exact .inl ⟨rfl, traced⟩
        · rw [here]
          exact .inr ⟨isOld, other, (fresh.others block isOld other).1⟩

end Kept

end HeapTrace

end XR872.Heap
