/-
What a whole call of the heap makes of the row of blocks.
-/

import XR872.Psram.HeapSteps

namespace XR872.Psram

open Arenas
open FreeLists
open MachineInts

variable {layout : HeapLayout} {heap : PsramHeap}

/-! ### `psram_malloc` -/

namespace HeapHolds

variable {blocks : List Block}

theorem ready (holds : HeapHolds layout heap blocks) :
    (if heap.pxEnd = 0 then psramHeapInit layout heap else heap) = heap := by
  have room := (heapBounds layout).room
  rw [holds.pxEnd, if_neg (by omega)]

/-- The search ends with the first block that is large enough, or with the end
of the list. -/
theorem search (holds : HeapHolds layout heap blocks) (wanted : Nat)
    (left right : List (Nat × Nat))
    (split : places false (alignedHeap layout) blocks = left ++ right)
    (small : ∀ place ∈ left, place.2 < wanted)
    (found : ∀ place ∈ right.head?, wanted ≤ place.2) :
    findBlock heap.links wanted (heapTurns layout) layout.xStart
        (heap.links layout.xStart).pxNextFreeBlock =
      some (lastNode layout.xStart left,
        firstNode right (heapEnd layout)) := by
  have linked := holds.linked
  rw [split] at linked
  have room := (heapBounds layout).room
  have first := (heapBounds layout).first
  have positive := layout.positive
  apply findBlock_eq heap wanted (heapEnd layout) (heapTurns layout)
    layout.xStart left right linked small
  · cases right with
    | nil => exact Or.inr holds.end_next
    | cons place rest =>
        left
        have size := linked.size_of_mem place (by simp)
        rw [firstNode_cons, size]
        exact found place rfl
  · intro place member
    rw [← split] at member
    have bounds := holds.place_bounds member
    omega
  · omega
  · have count := length_places_le false (alignedHeap layout) blocks
    have turns := holds.turns
    rw [split, List.length_append] at count
    omega

end HeapHolds

theorem malloc_eq (blocks : List Block) (wanted : Nat)
    (holds : HeapHolds layout heap blocks) (positive : 0 < wanted)
    (low : wanted < 2 ^ 31) :
    psramMalloc layout heap wanted =
      if roundUp wanted ≤ freeTotal blocks then do
        let (pxPreviousBlock, pxBlock) ←
          findBlock heap.links (roundUp wanted) (heapTurns layout) layout.xStart
            (heap.links layout.xStart).pxNextFreeBlock
        if pxBlock ≠ heapEnd layout then
          takeBlock layout heap (roundUp wanted) pxPreviousBlock pxBlock
        else return (0, heap)
      else some (0, heap) := by
  have clear : wanted &&& 2 ^ 31 = 0 := (and_top_bit 31 wanted (by omega)).mpr low
  have some_ : 0 < roundUp wanted := by
    unfold roundUp
    omega
  unfold psramMalloc
  simp only [holds.ready]
  simp only [holds.bit, clear, if_true, blockSizeFor_eq wanted positive low,
    Option.bind_eq_bind, Option.bind_some, holds.free, some_, true_and,
    holds.pxEnd]
  rfl

theorem malloc_refused (blocks : List Block) (wanted : Nat)
    (holds : HeapHolds layout heap blocks) (word : wanted < 2 ^ 32)
    (nothing : wanted = 0 ∨ 2 ^ 31 ≤ wanted ∨
      ∀ place ∈ places false (alignedHeap layout) blocks,
        place.2 < roundUp wanted) :
    psramMalloc layout heap wanted = some (0, heap) := by
  by_cases zero : wanted = 0
  · subst zero
    unfold psramMalloc
    simp [holds.ready, blockSizeFor]
  by_cases high : 2 ^ 31 ≤ wanted
  · have set : ¬wanted &&& 2 ^ 31 = 0 := by
      rw [and_top_bit 31 wanted word]
      omega
    unfold psramMalloc
    simp only [holds.ready, holds.bit, if_neg set]
    rfl
  have small := (nothing.resolve_left zero).resolve_left high
  rw [malloc_eq blocks wanted holds (by omega) (by omega)]
  split
  · have found := holds.search (roundUp wanted)
      (places false (alignedHeap layout) blocks) [] (List.append_nil _).symm
      small (fun place member => by cases member)
    rw [found]
    simp
  · rfl

theorem malloc_taken (wanted : Nat) (left right : List Block) (size : Nat)
    (holds : HeapHolds layout heap (left ++ ⟨size, false⟩ :: right))
    (positive : 0 < wanted) (low : wanted < 2 ^ 31)
    (fits : roundUp wanted ≤ size)
    (small : ∀ place ∈ freeBefore layout left, place.2 < roundUp wanted) :
    ∃ after, psramMalloc layout heap wanted =
        some (blockStart layout left + 16, after) ∧
      HeapHolds layout after (left ++ carve 32 (roundUp wanted) size right) ∧
      after.xMinimumEverFreeBytesRemaining =
        min heap.xMinimumEverFreeBytesRemaining after.xFreeBytesRemaining ∧
      ∀ place ∈ places true (alignedHeap layout) left ++
          places true (blockStart layout left + size) right,
        Untouched heap after place := by
  have block := block_bounds holds
  have rounded : 0 < roundUp wanted ∧ roundUp wanted % 16 = 0 := by
    unfold roundUp
    omega
  obtain ⟨after, taken, rest⟩ :=
    take_spec rounded.1 rounded.2 fits holds
  have found := holds.search (roundUp wanted) (freeBefore layout left)
    ((blockStart layout left, size) :: freeBehind layout left size right)
    (places_around layout left right size) small
    (fun place member => by cases member; exact fits)
  have remains : roundUp wanted ≤
      freeTotal (left ++ ⟨size, false⟩ :: right) := by
    simp
    omega
  have inside : blockStart layout left ≠ heapEnd layout := by omega
  refine ⟨after, ?_, rest⟩
  rw [malloc_eq _ wanted holds positive low, if_pos remains, found]
  simp only [Option.bind_eq_bind, Option.bind_some, firstNode_cons,
    if_pos inside]
  exact taken

/-! ### `psram_free` -/

theorem clear_top_bit (size : Nat) (low : size < 2 ^ 31) :
    (size + 2 ^ 31) &&& complement (2 ^ 31) = size := by
  have mask : complement (2 ^ 31) = 2 ^ 31 - 1 := by
    unfold complement
    omega
  rw [mask, Nat.and_two_pow_sub_one_eq_mod, Nat.add_mod_right,
    Nat.mod_eq_of_lt low]

section Free

variable {left right : List Block} {size : Nat}
  (holds : HeapHolds layout heap (left ++ ⟨size, true⟩ :: right))

theorem used_around (layout : HeapLayout) (left right : List Block)
    (size : Nat) :
    places true (alignedHeap layout) (left ++ ⟨size, true⟩ :: right) =
      places true (alignedHeap layout) left ++ (blockStart layout left, size) ::
        places true (blockStart layout left + size) right := by
  rw [places_append, places_cons_same]
  rfl

theorem free_around (layout : HeapLayout) (left right : List Block)
    (size : Nat) :
    places false (alignedHeap layout) (left ++ ⟨size, true⟩ :: right) =
      freeBefore layout left ++ freeBehind layout left size right := by
  rw [places_append, places_cons_used]
  rfl

include holds in
theorem used_bounds : alignedHeap layout ≤ blockStart layout left ∧
    blockStart layout left + size ≤ heapEnd layout ∧ 0 < size ∧
    16 ∣ size ∧ size < 2 ^ 31 := by
  have member : (blockStart layout left, size) ∈ places true
      (alignedHeap layout) (left ++ ⟨size, true⟩ :: right) := by
    rw [used_around]
    simp
  have bounds := holds.place_bounds member
  have last := (heapBounds layout).last
  have low := layout.low
  dsimp only at bounds
  exact ⟨bounds.1, bounds.2.1, bounds.2.2.1,
    Nat.dvd_of_mod_eq_zero bounds.2.2.2.1, by omega⟩

include holds in
/-- Another used block is where neither the block given back nor a free block
is. -/
theorem other_used_apart (place : Nat × Nat)
    (member : place ∈ places true (alignedHeap layout) left ++
      places true (blockStart layout left + size) right) (node : Nat)
    (from_ : place.1 ≤ node) (to_ : node < place.1 + place.2) :
    node ≠ layout.xStart ∧ node ≠ blockStart layout left ∧
      node ∉ (freeBefore layout left ++
        freeBehind layout left size right).map Prod.fst := by
  have own := used_bounds holds
  have inRow : place ∈ places true (alignedHeap layout)
      (left ++ ⟨size, true⟩ :: right) := by
    rw [used_around, List.mem_append, List.mem_cons]
    cases List.mem_append.mp member with
    | inl before => exact Or.inl before
    | inr behind => exact Or.inr (Or.inr behind)
  have bounds := holds.place_bounds inRow
  constructor
  · exact (HeapHolds.start_apart _ (by omega) (by omega)).symm
  constructor
  · cases List.mem_append.mp member with
    | inl before =>
        have within : _ ∧ place.1 + place.2 ≤ blockStart layout left :=
          places_within before
        omega
    | inr behind =>
        have within := places_within behind
        omega
  · intro inside
    obtain ⟨free, isFree, same⟩ := List.mem_map.mp inside
    rw [← free_around] at isFree
    have freeBounds := holds.place_bounds isFree
    cases used_apart_free inRow isFree with
    | inl before => omega
    | inr behind => omega

def unmarked (heap : PsramHeap) (node size : Nat) : PsramHeap :=
  { heap.setSize node size with
    xFreeBytesRemaining := heap.xFreeBytesRemaining + size }

include holds in
theorem unmarked_list :
    FreeList layout (unmarked heap (blockStart layout left) size)
      (freeBefore layout left ++ freeBehind layout left size right) := by
  have own := used_bounds holds
  rw [← free_around]
  apply holds.freeList.congr
  · rfl
  intro node member
  have apart : node ≠ blockStart layout left := by
    cases List.mem_cons.mp member with
    | inl start =>
        rw [start]
        exact HeapHolds.start_apart _ own.1 (by omega)
    | inr inside =>
        obtain ⟨free, isFree, same⟩ := List.mem_map.mp inside
        have freeBounds := holds.place_bounds isFree
        have isUsed : (blockStart layout left, size) ∈ places true
            (alignedHeap layout) (left ++ ⟨size, true⟩ :: right) := by
          rw [used_around]
          simp
        cases used_apart_free isUsed isFree with
        | inl before => dsimp only at before; omega
        | inr behind => dsimp only at behind; omega
  constructor
  · exact PsramHeap.setSize_next heap _ _ node
  · exact (PsramHeap.setSize_size heap _ _ node).trans (if_neg apart)

include holds in
theorem free_eq :
    psramFree layout heap (blockStart layout left + 16) =
      psramPrvInsertBlockIntoFreeList layout
        (unmarked heap (blockStart layout left) size)
        (blockStart layout left) := by
  have own := used_bounds holds
  have header := holds.headers (blockStart layout left, size) (by
    rw [used_around]
    simp)
  have next : (heap.links (blockStart layout left)).pxNextFreeBlock = 0 :=
    header.1
  have word : (heap.links (blockStart layout left)).xBlockSize =
      size + 2 ^ 31 := header.2
  have marked : (size + 2 ^ 31) &&& 2 ^ 31 ≠ 0 := by
    intro clear
    rw [and_top_bit 31 _ (by omega)] at clear
    omega
  have pointer : blockStart layout left + 16 ≠ 0 := by omega
  have link : blockStart layout left + 16 - heapStructSize =
      blockStart layout left := by
    rw [heapStructSize_eq]
    omega
  unfold psramFree
  rw [if_pos pointer]
  simp only [link, next, word, holds.bit, guard, if_pos marked, if_true,
    clear_top_bit size own.2.2.2.2]
  have stored : ((heap.setSize (blockStart layout left) size).links
      (blockStart layout left)).xBlockSize = size :=
    (PsramHeap.setSize_size heap _ _ _).trans (if_pos rfl)
  change psramPrvInsertBlockIntoFreeList layout
    { heap.setSize (blockStart layout left) size with
      xFreeBytesRemaining := heap.xFreeBytesRemaining +
        ((heap.setSize (blockStart layout left) size).links
          (blockStart layout left)).xBlockSize } _ = _
  rw [stored]
  rfl

include holds in
/-- The block given back becomes free, and one with its free neighbours. -/
theorem free_spec :
    ∃ after, psramFree layout heap (blockStart layout left + 16) =
        some after ∧
      HeapHolds layout after (release left size right) ∧
      after.xMinimumEverFreeBytesRemaining =
        heap.xMinimumEverFreeBytesRemaining ∧
      ∀ place ∈ places true (alignedHeap layout) left ++
          places true (blockStart layout left + size) right,
        Untouched heap after place := by
  have own := used_bounds holds
  have filled := (filled_append _ _).mp holds.filled
  have filledBehind := (filled_cons _ _).mp filled.2
  have whole := List.forall_mem_append.mp holds.whole
  have wholeBehind := List.forall_mem_cons.mp whole.2
  have turns := holds.turns
  have startApart := HeapHolds.start_apart (blockStart layout left) own.1
    (by omega)
  have count := length_places_le false (alignedHeap layout) left
  rw [List.length_append, List.length_cons] at turns
  obtain ⟨after, run, linked, start, counts, others⟩ := insert_spec
    (unmarked heap (blockStart layout left) size) (blockStart layout left) size
    (freeBefore layout left) (freeBehind layout left size right)
    (unmarked_list holds)
    ((PsramHeap.setSize_size heap _ _ _).trans (if_pos rfl))
    (fun place member => address_lt_of_before filled.1 member)
    (fun place member => by
      have within := places_within member
      omega)
    (by
      change _ < heap.pxEnd
      rw [holds.pxEnd]
      omega)
    startApart (by
      unfold freeBefore
      omega)
  have pxEnd : after.pxEnd = heapEnd layout := counts.pxEnd.trans holds.pxEnd
  have kept (node : Nat) (notStart : node ≠ layout.xStart)
      (notOwn : node ≠ blockStart layout left)
      (outside : node ∉ (freeBefore layout left ++
        freeBehind layout left size right).map Prod.fst) :
      after.next node = heap.next node ∧ after.size node = heap.size node := by
    have same := others node notStart notOwn outside
    rw [same.1, same.2]
    exact ⟨PsramHeap.setSize_next heap _ _ node,
      (PsramHeap.setSize_size heap _ _ node).trans (if_neg notOwn)⟩
  have atEnd := kept (heapEnd layout)
    (HeapHolds.start_apart _ (by omega) (Nat.le_refl _)).symm (by omega) (by
      rw [← free_around]
      intro inside
      obtain ⟨free, isFree, same⟩ := List.mem_map.mp inside
      have bounds := holds.place_bounds isFree
      omega)
  have untouched : ∀ place ∈ places true (alignedHeap layout) left ++
      places true (blockStart layout left + size) right,
      Untouched heap after place := by
    intro place member node from_ to_
    have apart := other_used_apart holds place member node from_ to_
    exact kept node apart.1 apart.2.1 apart.2.2
  refine ⟨after, (free_eq holds).trans run, ?_, counts.minimum, untouched⟩
  constructor
  · exact pxEnd
  · rw [total_release]
    have fills := holds.fills
    rw [total_append, total_cons] at fills
    exact fills
  · exact dvd_release 16 left size right whole.1 wholeBehind.1 wholeBehind.2
  · exact filled_release left size own.2.2.1 right filled.1 filledBehind.2
  · exact settled_release left size right holds.settled
  · rw [free_release _ _ _ _ filled.1 filledBehind.2]
    have stop : (unmarked heap (blockStart layout left) size).pxEnd =
        heapEnd layout := holds.pxEnd
    rw [stop] at linked
    exact linked
  · exact start
  · exact atEnd.1.trans holds.end_next
  · exact atEnd.2.trans holds.end_size
  · intro place member
    rw [used_release] at member
    have inRow : place ∈ places true (alignedHeap layout)
        (left ++ ⟨size, true⟩ :: right) := by
      rw [used_around, List.mem_append, List.mem_cons]
      cases List.mem_append.mp member with
      | inl before => exact Or.inl before
      | inr behind => exact Or.inr (Or.inr behind)
    have bounds := holds.place_bounds inRow
    have same := untouched place member place.1 (Nat.le_refl _) (by omega)
    rw [same.1, same.2]
    exact holds.headers place inRow
  · have free := holds.free
    rw [freeTotal_append, freeTotal_cons] at free
    rw [counts.free, freeTotal_release]
    change heap.xFreeBytesRemaining + size = _
    rw [free]
    simp
  · exact counts.bit.trans holds.bit

end Free

end XR872.Psram
