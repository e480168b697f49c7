/-
The heap as a row of blocks, and what each call makes of the row.

The blocks fill the heap from its first aligned address to its end. The links of
the free blocks are the list, and the link of a used block says its size with
the top bit.
-/

import XR872.Psram.Heap

namespace XR872.Psram

open Arenas
open FreeLists
open MachineInts

variable (layout : HeapLayout)

/-- Where `psram_pxEnd` is put. -/
def heapEnd : Nat :=
  (alignedHeap layout +
      (layout.idcacheEnd - layout.psramEnd -
        (alignedHeap layout - layout.psramEnd)) - heapStructSize) &&&
    complement portByteAlignmentMask

structure HeapBounds : Prop where
  aligned : alignedHeap layout % 16 = 0
  first : layout.psramEnd ≤ alignedHeap layout
  room : alignedHeap layout + 16 ≤ heapEnd layout
  end_aligned : heapEnd layout % 16 = 0
  last : heapEnd layout + 16 ≤ layout.idcacheEnd

theorem heapBounds : HeapBounds layout := by
  have room := layout.room
  have low := layout.low
  have aligned : alignedHeap layout % 16 = 0 ∧
      layout.psramEnd ≤ alignedHeap layout ∧
      alignedHeap layout < layout.psramEnd + 16 := by
    unfold alignedHeap portByteAlignment
    rw [and_alignmentMask, and_complement_alignmentMask _ (by omega)]
    split <;> omega
  have stop : heapEnd layout =
      layout.idcacheEnd - 16 - (layout.idcacheEnd - 16) % 16 := by
    have whole : alignedHeap layout +
        (layout.idcacheEnd - layout.psramEnd -
          (alignedHeap layout - layout.psramEnd)) = layout.idcacheEnd := by
      omega
    unfold heapEnd
    rw [whole, heapStructSize_eq, and_complement_alignmentMask _ (by omega)]
  constructor <;> omega

structure HeapHolds (heap : PsramHeap) (blocks : List Block) : Prop where
  pxEnd : heap.pxEnd = heapEnd layout
  fills : alignedHeap layout + total blocks = heapEnd layout
  whole : ∀ block ∈ blocks, 16 ∣ block.size
  filled : Filled blocks
  settled : Settled blocks
  linked : Linked heap.next heap.size layout.xStart
    (places false (alignedHeap layout) blocks) (heapEnd layout)
  start_size : heap.size layout.xStart = 0
  end_next : heap.next (heapEnd layout) = 0
  end_size : heap.size (heapEnd layout) = 0
  headers : ∀ place ∈ places true (alignedHeap layout) blocks,
    heap.next place.1 = 0 ∧ heap.size place.1 = place.2 + 2 ^ 31
  free : heap.xFreeBytesRemaining = freeTotal blocks
  bit : heap.xBlockAllocatedBit = 2 ^ 31

variable {layout} {heap : PsramHeap} {blocks : List Block}

namespace HeapHolds

theorem place_bounds (holds : HeapHolds layout heap blocks) {used : Bool}
    {place : Nat × Nat}
    (member : place ∈ places used (alignedHeap layout) blocks) :
    alignedHeap layout ≤ place.1 ∧ place.1 + place.2 ≤ heapEnd layout ∧
      0 < place.2 ∧ place.2 % 16 = 0 ∧ place.1 % 16 = 0 := by
  have within := places_within member
  obtain ⟨left, right, split, address⟩ := places_split member
  have inside : (⟨place.2, used⟩ : Block) ∈ blocks := by
    rw [split]
    simp
  have fills := holds.fills
  have bounds := heapBounds layout
  have front : total left % 16 = 0 := by
    have whole : ∀ block ∈ left, 16 ∣ block.size := by
      intro block isLeft
      apply holds.whole
      rw [split]
      exact List.mem_append_left _ isLeft
    clear split address
    induction left with
    | nil => rfl
    | cons block rest ih =>
        have tail := ih fun other member =>
          whole other (List.mem_cons_of_mem block member)
        have here := whole block List.mem_cons_self
        rw [total_cons]
        omega
  have size := holds.whole _ inside
  have positive := holds.filled _ inside
  have aligned := bounds.aligned
  dsimp only at size positive
  exact ⟨within.1, by omega, positive, Nat.mod_eq_zero_of_dvd size, by omega⟩

theorem start_apart (address : Nat) (from_ : alignedHeap layout ≤ address)
    (to_ : address ≤ heapEnd layout) : layout.xStart ≠ address := by
  have bounds := heapBounds layout
  have first := bounds.first
  have last := bounds.last
  cases layout.outside with
  | inl before => omega
  | inr behind => omega

theorem freeList (holds : HeapHolds layout heap blocks) :
    FreeList layout heap (places false (alignedHeap layout) blocks) := by
  have linked := holds.linked
  rw [← holds.pxEnd] at linked
  refine ⟨linked, holds.start_size, ?_, ?_⟩
  · rw [List.nodup_cons]
    constructor
    · intro member
      obtain ⟨place, inside, same⟩ := List.mem_map.mp member
      have bounds := holds.place_bounds inside
      exact start_apart place.1 bounds.1 (by omega) same.symm
    · exact (places_sorted _ _ _ holds.filled).imp fun lower => by omega
  · rw [holds.pxEnd, List.mem_cons]
    rintro (start | member)
    · have room := (heapBounds layout).room
      exact start_apart _ (by omega) (Nat.le_refl _) start.symm
    · obtain ⟨place, inside, same⟩ := List.mem_map.mp member
      have bounds := holds.place_bounds inside
      omega

theorem turns (holds : HeapHolds layout heap blocks) :
    blocks.length + 1 < heapTurns layout := by
  have fills := holds.fills
  have bounds := heapBounds layout
  have first := bounds.first
  have last := bounds.last
  have count : 16 * blocks.length ≤ total blocks := by
    have whole := holds.whole
    have filled := holds.filled
    clear holds fills
    induction blocks with
    | nil => simp
    | cons block rest ih =>
        have tail := ih
          (fun other member => whole other (List.mem_cons_of_mem block member))
          (fun other member => filled other (List.mem_cons_of_mem block member))
        have here := whole block List.mem_cons_self
        have positive := filled block List.mem_cons_self
        rw [total_cons, List.length_cons]
        omega
  unfold heapTurns
  omega

end HeapHolds

/-! ### The first call -/

variable (layout) in
theorem init_holds (heap : PsramHeap) :
    HeapHolds layout (psramHeapInit layout heap)
      [⟨heapEnd layout - alignedHeap layout, false⟩] := by
  have bounds := heapBounds layout
  have room := bounds.room
  have aligned := bounds.aligned
  have end_aligned := bounds.end_aligned
  have startFirst := HeapHolds.start_apart (alignedHeap layout) (Nat.le_refl _)
    (by omega)
  have startEnd := HeapHolds.start_apart (heapEnd layout) (by omega)
    (Nat.le_refl _)
  have firstEnd : alignedHeap layout ≠ heapEnd layout := by omega
  have unfolded : psramHeapInit layout heap =
      { ((((((heap.setNext layout.xStart (alignedHeap layout)).setSize
        layout.xStart 0).setSize (heapEnd layout) 0).setNext (heapEnd layout)
        0).setSize (alignedHeap layout)
        (heapEnd layout - alignedHeap layout)).setNext (alignedHeap layout)
        (heapEnd layout)) with
        pxEnd := heapEnd layout
        xMinimumEverFreeBytesRemaining := heapEnd layout - alignedHeap layout
        xFreeBytesRemaining := heapEnd layout - alignedHeap layout
        xBlockAllocatedBit := 1 <<< (4 * heapBitsPerByte - 1) } := rfl
  have next (node : Nat) : (psramHeapInit layout heap).next node =
      if node = alignedHeap layout then heapEnd layout
      else if node = heapEnd layout then 0
      else if node = layout.xStart then alignedHeap layout
      else heap.next node := by
    rw [unfolded]
    change (PsramHeap.setNext _ _ _).next node = _
    simp
  have size (node : Nat) : (psramHeapInit layout heap).size node =
      if node = alignedHeap layout then heapEnd layout - alignedHeap layout
      else if node = heapEnd layout then 0
      else if node = layout.xStart then 0
      else heap.size node := by
    rw [unfolded]
    change (PsramHeap.setNext _ _ _).size node = _
    simp
  constructor
  · rfl
  · rw [total_cons, total_nil]
    dsimp only
    omega
  · intro block member
    rw [List.mem_singleton.mp member]
    dsimp only
    omega
  · intro block member
    rw [List.mem_singleton.mp member]
    dsimp only
    omega
  · exact List.IsChain.singleton _
  · rw [places_cons_same, places_nil]
    refine ⟨?_, ?_, ?_⟩
    · rw [next, if_neg startFirst, if_neg startEnd, if_pos rfl]
    · rw [size, if_pos rfl]
    · change (psramHeapInit layout heap).next (alignedHeap layout) = _
      rw [next, if_pos rfl]
  · rw [size, if_neg startFirst, if_neg startEnd, if_pos rfl]
  · rw [next, if_neg firstEnd.symm, if_pos rfl]
  · rw [size, if_neg firstEnd.symm, if_pos rfl]
  · intro place member
    simp at member
  · rfl
  · rfl

/-! ### The search for a block -/

theorem findBlock_eq (heap : PsramHeap) (wanted stop turns node : Nat)
    (left right : List (Nat × Nat))
    (linked : Linked heap.next heap.size node (left ++ right) stop)
    (small : ∀ place ∈ left, place.2 < wanted)
    (found : wanted ≤ heap.size (firstNode right stop) ∨
      heap.next (firstNode right stop) = 0)
    (nodes : ∀ place ∈ left ++ right, place.1 ≠ 0) (positive : stop ≠ 0)
    (enough : left.length < turns) :
    findBlock heap.links wanted turns node (heap.next node) =
      some (lastNode node left, firstNode right stop) := by
  induction left generalizing node turns with
  | nil =>
      cases turns with
      | zero => omega
      | succ turns =>
          rw [linked.next_eq, lastNode_nil, findBlock, if_neg]
          · rfl
          · rintro ⟨less, more⟩
            cases found with
            | inl fits => exact Nat.not_lt_of_le fits less
            | inr isLast => exact more isLast
  | cons place rest ih =>
      cases turns with
      | zero => omega
      | succ turns =>
          have next : heap.next node = place.1 := linked.1
          have size : heap.size place.1 = place.2 := linked.2.1
          have less := small place List.mem_cons_self
          have more : heap.next place.1 ≠ 0 := by
            have link : heap.next place.1 = firstNode (rest ++ right) stop :=
              linked.2.2.next_eq
            rw [link]
            cases later : rest ++ right with
            | nil => exact positive
            | cons other others =>
                apply nodes
                rw [List.cons_append, later]
                exact List.mem_cons_of_mem _ List.mem_cons_self
          have passes : (heap.links place.1).xBlockSize < wanted ∧
              (heap.links place.1).pxNextFreeBlock ≠ 0 := by
            constructor
            · change heap.size place.1 < wanted
              rw [size]
              exact less
            · exact more
          rw [next, findBlock, if_pos passes, lastNode_cons]
          apply ih turns place.1 linked.2.2
          · intro other member
            exact small other (List.mem_cons_of_mem place member)
          · intro other member
            exact nodes other (List.mem_cons_of_mem place member)
          · simpa using enough

/-! ### A block is taken -/

section Take

variable {left right : List Block} {size wanted : Nat}

def blockStart (layout : HeapLayout) (left : List Block) : Nat :=
  alignedHeap layout + total left

def freeBefore (layout : HeapLayout) (left : List Block) : List (Nat × Nat) :=
  places false (alignedHeap layout) left

def freeBehind (layout : HeapLayout) (left : List Block) (size : Nat)
    (right : List Block) : List (Nat × Nat) :=
  places false (blockStart layout left + size) right

theorem places_around (layout : HeapLayout) (left right : List Block)
    (size : Nat) :
    places false (alignedHeap layout) (left ++ ⟨size, false⟩ :: right) =
      freeBefore layout left ++ (blockStart layout left, size) ::
        freeBehind layout left size right := by
  rw [places_append, places_cons_same]
  rfl

theorem places_carve (layout : HeapLayout) (left right : List Block)
    (size wanted : Nat) (fits : wanted ≤ size) :
    places false (alignedHeap layout) (left ++ carve 32 wanted size right) =
      freeBefore layout left ++
        ((if 32 < size - wanted then
          [(blockStart layout left + wanted, size - wanted)] else []) ++
        freeBehind layout left size right) := by
  rw [places_append]
  unfold carve
  split
  · rw [places_cons_used, places_cons_same]
    have sum : alignedHeap layout + total left + wanted + (size - wanted) =
        blockStart layout left + size := by
      unfold blockStart
      omega
    rw [sum]
    rfl
  · rw [places_cons_used]
    rfl

variable (holds : HeapHolds layout heap (left ++ ⟨size, false⟩ :: right))

include holds in
theorem before_bounds (place : Nat × Nat)
    (member : place ∈ freeBefore layout left) :
    place.1 + place.2 ≤ blockStart layout left ∧
      place.1 < blockStart layout left := by
  have filled := ((filled_append _ _).mp holds.filled).1
  exact ⟨(places_within member).2, address_lt_of_before filled member⟩

include holds in
theorem behind_bounds (place : Nat × Nat)
    (member : place ∈ freeBehind layout left size right) :
    blockStart layout left + size < place.1 := by
  have behind := ((filled_append _ _).mp holds.filled).2
  have settled := (List.isChain_append.mp holds.settled).2.1
  exact free_behind settled ((filled_cons _ _).mp behind).2 place member

include holds in
theorem block_bounds : alignedHeap layout ≤ blockStart layout left ∧
    blockStart layout left + size ≤ heapEnd layout ∧ 0 < size ∧
    blockStart layout left % 16 = 0 ∧ size % 16 = 0 := by
  have member : (blockStart layout left, size) ∈ places false
      (alignedHeap layout) (left ++ ⟨size, false⟩ :: right) := by
    rw [places_around]
    simp
  have bounds := holds.place_bounds member
  exact ⟨bounds.1, bounds.2.1, bounds.2.2.1, bounds.2.2.2.2, bounds.2.2.2.1⟩

include holds in
theorem free_nodes_apart (positive : 0 < wanted) (fits : wanted ≤ size)
    (node : Nat)
    (member : node ∈ layout.xStart :: (freeBefore layout left ++
      freeBehind layout left size right).map Prod.fst) :
    node ≠ blockStart layout left ∧
      node ≠ blockStart layout left + wanted := by
  have block := block_bounds holds
  cases List.mem_cons.mp member with
  | inl start =>
      rw [start]
      exact ⟨HeapHolds.start_apart _ (by omega) (by omega),
        HeapHolds.start_apart _ (by omega) (by omega)⟩
  | inr inside =>
      obtain ⟨place, isFree, same⟩ := List.mem_map.mp inside
      cases List.mem_append.mp isFree with
      | inl before =>
          have bound := before_bounds holds place before
          omega
      | inr behind =>
          have bound := behind_bounds holds place behind
          omega

def Aside (layout : HeapLayout) (left : List Block) (size wanted : Nat)
    (right : List Block) (node : Nat) : Prop :=
  node ≠ layout.xStart ∧ node ≠ blockStart layout left ∧
    (32 < size - wanted → node ≠ blockStart layout left + wanted) ∧
    node ∉ (freeBefore layout left ++
      freeBehind layout left size right).map Prod.fst

theorem split_spec (mid : PsramHeap) (positive : 0 < wanted)
    (aligned : wanted % 16 = 0) (fits : wanted ≤ size)
    (holds : HeapHolds layout heap (left ++ ⟨size, false⟩ :: right))
    (pxEnd : mid.pxEnd = heapEnd layout)
    (list : FreeList layout mid
      (freeBefore layout left ++ freeBehind layout left size right))
    (own : mid.size (blockStart layout left) = size) :
    ∃ after, splitBlock layout mid wanted (blockStart layout left) =
        some after ∧
      Linked after.next after.size layout.xStart
        (places false (alignedHeap layout)
          (left ++ carve 32 wanted size right)) (heapEnd layout) ∧
      after.size layout.xStart = 0 ∧ mid.SameCounts after ∧
      after.size (blockStart layout left) =
        (if 32 < size - wanted then wanted else size) ∧
      ∀ node, Aside layout left size wanted right node →
        after.next node = mid.next node ∧ after.size node = mid.size node := by
  have block := block_bounds holds
  have bounds := heapBounds layout
  have low := layout.low
  have last := bounds.last
  have fold : (mid.links (blockStart layout left)).xBlockSize = size := own
  unfold splitBlock
  simp only [fold, heapMinimumBlockSize_eq]
  by_cases large : 32 < size - wanted
  · rw [if_pos large, places_carve _ _ _ _ _ fits, if_pos large, if_pos large]
    have isAligned : (blockStart layout left + wanted) &&&
        portByteAlignmentMask = 0 := by
      rw [and_alignmentMask]
      omega
    have startApart := @HeapHolds.start_apart layout
    have nodes := fun node => free_nodes_apart holds positive fits node
    have cut : FreeList layout ((mid.setSize (blockStart layout left + wanted)
        (size - wanted)).setSize (blockStart layout left) wanted)
        (freeBefore layout left ++ freeBehind layout left size right) := by
      refine list.congr ?_ ?_
      · rfl
      · intro node member
        have apart := nodes node member
        simp [apart.1, apart.2]
    obtain ⟨after, run, linked, start, counts, others⟩ := insert_spec _
      (blockStart layout left + wanted) (size - wanted) _ _ cut
      (by
        rw [PsramHeap.setSize_size, if_neg (by omega), PsramHeap.setSize_size,
          if_pos rfl])
      (fun place member => by
        have := before_bounds holds place member
        omega)
      (fun place member => by
        have := behind_bounds holds place member
        omega)
      (by
        change _ < mid.pxEnd
        rw [pxEnd]
        omega)
      (startApart _ (by omega) (by omega))
      (by
        have turns := holds.turns
        have count := length_places_le false (alignedHeap layout) left
        rw [List.length_append, List.length_cons] at turns
        unfold freeBefore
        omega)
    refine ⟨after, ?_, ?_, start, ?_, ?_, ?_⟩
    · simp only [guard, isAligned, if_true]
      exact run
    · rw [join_apart, joinBehind_apart] at linked
      · change Linked _ _ _ _ mid.pxEnd at linked
        rw [pxEnd] at linked
        exact linked
      · intro place member
        have := behind_bounds holds place member
        omega
      · intro place member
        have := before_bounds holds place member
        omega
    · exact ⟨counts.pxEnd, counts.free, counts.minimum, counts.bit⟩
    · have apart := (startApart (blockStart layout left) (by omega)
        (by omega)).symm
      rw [(others _ apart (by omega) (fun member =>
        (nodes _ (List.mem_cons_of_mem _ member)).1 rfl)).2,
        PsramHeap.setSize_size, if_pos rfl]
    · intro node aside
      have notNew := aside.2.2.1 large
      have same := others node aside.1 notNew aside.2.2.2
      rw [same.1, same.2]
      simp [aside.2.1, notNew]
  · rw [if_neg large, places_carve _ _ _ _ _ fits, if_neg large, if_neg large]
    have linked := list.linked
    rw [pxEnd] at linked
    exact ⟨mid, rfl, linked, list.start_size, ⟨rfl, rfl, rfl, rfl⟩, own,
      fun node _ => ⟨rfl, rfl⟩⟩

def takenSize (size wanted : Nat) : Nat :=
  if 32 < size - wanted then wanted else size

theorem used_carve (layout : HeapLayout) (left right : List Block)
    (size wanted : Nat) (fits : wanted ≤ size) :
    places true (alignedHeap layout) (left ++ carve 32 wanted size right) =
      places true (alignedHeap layout) left ++
        (blockStart layout left, takenSize size wanted) ::
          places true (blockStart layout left + size) right := by
  rw [places_append]
  unfold carve takenSize
  split
  · rw [places_cons_same, places_cons_free]
    have sum : alignedHeap layout + total left + wanted + (size - wanted) =
        blockStart layout left + size := by
      unfold blockStart
      omega
    rw [sum]
    rfl
  · rw [places_cons_same]
    rfl

include holds in
theorem used_aside (positive : 0 < wanted) (fits : wanted ≤ size)
    (place : Nat × Nat)
    (member : place ∈ places true (alignedHeap layout) left ++
      places true (blockStart layout left + size) right) (node : Nat)
    (from_ : place.1 ≤ node) (to_ : node < place.1 + place.2) :
    Aside layout left size wanted right node := by
  have inRow : place ∈ places true (alignedHeap layout)
      (left ++ ⟨size, false⟩ :: right) := by
    rw [places_append, places_cons_free]
    exact member
  have bounds := holds.place_bounds inRow
  have block := block_bounds holds
  have apart (free : Nat × Nat)
      (isFree : free ∈ places false (alignedHeap layout)
        (left ++ ⟨size, false⟩ :: right)) : node ≠ free.1 := by
    have freeBounds := holds.place_bounds isFree
    cases used_apart_free inRow isFree with
    | inl before => omega
    | inr behind => omega
  rw [places_around] at apart
  refine ⟨(HeapHolds.start_apart _ (by omega) (by omega)).symm,
    apart (blockStart layout left, size) (by simp), ?_, ?_⟩
  · intro large
    cases List.mem_append.mp member with
    | inl before =>
        have within : _ ∧ place.1 + place.2 ≤ blockStart layout left :=
          places_within before
        omega
    | inr behind =>
        have within := places_within behind
        omega
  · intro inside
    obtain ⟨free, isFree, same⟩ := List.mem_map.mp inside
    apply apart free _ same.symm
    cases List.mem_append.mp isFree with
    | inl before => exact List.mem_append_left _ before
    | inr behind =>
        exact List.mem_append_right _ (List.mem_cons_of_mem _ behind)

include holds in
theorem end_aside (fits : wanted ≤ size) :
    Aside layout left size wanted right (heapEnd layout) := by
  have block := block_bounds holds
  refine ⟨(HeapHolds.start_apart _ (by omega) (Nat.le_refl _)).symm, by omega,
    by omega, ?_⟩
  intro inside
  obtain ⟨free, isFree, same⟩ := List.mem_map.mp inside
  have inRow : free ∈ places false (alignedHeap layout)
      (left ++ ⟨size, false⟩ :: right) := by
    rw [places_around]
    cases List.mem_append.mp isFree with
    | inl before => exact List.mem_append_left _ before
    | inr behind =>
        exact List.mem_append_right _ (List.mem_cons_of_mem _ behind)
  have bounds := holds.place_bounds inRow
  omega

namespace PsramHeap

variable (heap : PsramHeap) (block node : Nat)

theorem handOver_next : (handOver heap block).next node =
    if node = block then 0 else heap.next node := by
  change (PsramHeap.setNext _ _ _).next node = _
  rw [setNext_next, setSize_next]
  rfl

theorem handOver_size : (handOver heap block).size node =
    if node = block then heap.size block ||| heap.xBlockAllocatedBit
    else heap.size node := by
  change (PsramHeap.setNext _ _ _).size node = _
  rw [setNext_size, setSize_size]
  rfl

end PsramHeap

def Untouched (heap after : PsramHeap) (place : Nat × Nat) : Prop :=
  ∀ node, place.1 ≤ node → node < place.1 + place.2 →
    after.next node = heap.next node ∧ after.size node = heap.size node

theorem take_spec (positive : 0 < wanted) (aligned : wanted % 16 = 0)
    (fits : wanted ≤ size)
    (holds : HeapHolds layout heap (left ++ ⟨size, false⟩ :: right)) :
    ∃ after, takeBlock layout heap wanted
        (lastNode layout.xStart (freeBefore layout left))
        (blockStart layout left) =
        some (blockStart layout left + 16, after) ∧
      HeapHolds layout after (left ++ carve 32 wanted size right) ∧
      after.xMinimumEverFreeBytesRemaining =
        min heap.xMinimumEverFreeBytesRemaining after.xFreeBytesRemaining ∧
      ∀ place ∈ places true (alignedHeap layout) left ++
          places true (blockStart layout left + size) right,
        Untouched heap after place := by
  have list := holds.freeList
  rw [places_around] at list
  have block := block_bounds holds
  have bounds := heapBounds layout
  have low := layout.low
  have last := bounds.last
  have atEnd := end_aside holds fits
  have toBlock := ((linked_append _ _ _ _).mp list.linked).2
  have before : (heap.links (lastNode layout.xStart
      (freeBefore layout left))).pxNextFreeBlock = blockStart layout left :=
    toBlock.1
  obtain ⟨after, run, linked, start, counts, own, others⟩ := split_spec
    (heap.setNext (lastNode layout.xStart (freeBefore layout left))
      (heap.next (blockStart layout left)))
    positive aligned fits holds holds.pxEnd list.unlink
    (by rw [PsramHeap.setNext_size]; exact toBlock.2.1)
  have notPrevious (node : Nat)
      (aside : Aside layout left size wanted right node) :
      node ≠ lastNode layout.xStart (freeBefore layout left) := by
    intro same
    cases FreeLists.lastNode_mem layout.xStart (freeBefore layout left) with
    | inl first => exact aside.1 (same.trans first)
    | inr member =>
        apply aside.2.2.2
        rw [same, List.map_append]
        exact List.mem_append_left _ member
  have kept (node : Nat) (aside : Aside layout left size wanted right node) :
      (handOver after (blockStart layout left)).next node = heap.next node ∧
        (handOver after (blockStart layout left)).size node =
          heap.size node := by
    have same := others node aside
    rw [PsramHeap.setNext_next, if_neg (notPrevious node aside),
      PsramHeap.setNext_size] at same
    rw [PsramHeap.handOver_next, PsramHeap.handOver_size, if_neg aside.2.1,
      if_neg aside.2.1]
    exact same
  have untouched : ∀ place ∈ places true (alignedHeap layout) left ++
      places true (blockStart layout left + size) right,
      Untouched heap (handOver after (blockStart layout left)) place := by
    intro place member node from_ to_
    exact kept node (used_aside holds positive fits place member node from_ to_)
  refine ⟨handOver after (blockStart layout left), ?_, ?_, ?_, untouched⟩
  · have isAligned : (blockStart layout left + heapStructSize) &&&
        portByteAlignmentMask = 0 := by
      rw [and_alignmentMask, heapStructSize_eq]
      omega
    unfold takeBlock
    rw [before]
    change (splitBlock _ _ _ _).bind _ = _
    have found : splitBlock layout
        (heap.setNext (lastNode layout.xStart (freeBefore layout left))
          (heap.links (blockStart layout left)).pxNextFreeBlock) wanted
        (blockStart layout left) = some after := run
    rw [found]
    simp only [Option.bind_some, guard, isAligned, if_true]
    rfl
  · have filled := (filled_append _ _).mp holds.filled
    have filledBehind := (filled_cons _ _).mp filled.2
    have fills := holds.fills
    rw [total_append, total_cons] at fills
    have takenLow : takenSize size wanted < 2 ^ 31 := by
      unfold takenSize
      split <;> omega
    constructor
    · exact counts.pxEnd.trans holds.pxEnd
    · rw [total_append, total_carve _ _ _ _ fits]
      exact fills
    · have whole := List.forall_mem_append.mp holds.whole
      have wholeBehind := List.forall_mem_cons.mp whole.2
      rw [List.forall_mem_append]
      exact ⟨whole.1, dvd_carve _ _ _ _ 16 (Nat.dvd_of_mod_eq_zero aligned)
        wholeBehind.1 wholeBehind.2⟩
    · rw [filled_append]
      exact ⟨filled.1, filled_carve _ _ _ _ positive fits filledBehind.2⟩
    · exact settled_carve _ _ _ _ left holds.settled
    · have nodes : ∀ place ∈ places false (alignedHeap layout)
          (left ++ carve 32 wanted size right),
          place.1 ≠ blockStart layout left := by
        intro place member
        rw [places_carve _ _ _ _ _ fits] at member
        have elsewhere := free_nodes_apart holds positive fits
        rw [List.mem_append, List.mem_append] at member
        rcases member with isBefore | isNew | isBehind
        · apply (elsewhere place.1 _).1
          rw [List.map_append]
          exact List.mem_cons_of_mem _ (List.mem_append_left _
            (List.mem_map_of_mem isBefore))
        · split at isNew
          · rw [List.mem_singleton.mp isNew]
            dsimp only
            omega
          · cases isNew
        · apply (elsewhere place.1 _).1
          rw [List.map_append]
          exact List.mem_cons_of_mem _ (List.mem_append_right _
            (List.mem_map_of_mem isBehind))
      apply linked.congr
      · rw [PsramHeap.handOver_next, if_neg]
        exact HeapHolds.start_apart _ block.1 (by omega)
      · intro place member
        rw [PsramHeap.handOver_next, PsramHeap.handOver_size,
          if_neg (nodes place member), if_neg (nodes place member)]
        exact ⟨rfl, rfl⟩
    · rw [PsramHeap.handOver_size, if_neg]
      · exact start
      · exact HeapHolds.start_apart _ block.1 (by omega)
    · rw [(kept _ atEnd).1]
      exact holds.end_next
    · rw [(kept _ atEnd).2]
      exact holds.end_size
    · intro place member
      rw [used_carve _ _ _ _ _ fits, List.mem_append, List.mem_cons] at member
      have old (isOld : place ∈ places true (alignedHeap layout) left ++
          places true (blockStart layout left + size) right) :
          (handOver after (blockStart layout left)).next place.1 = 0 ∧
            (handOver after (blockStart layout left)).size place.1 =
              place.2 + 2 ^ 31 := by
        have inRow : place ∈ places true (alignedHeap layout)
            (left ++ ⟨size, false⟩ :: right) := by
          rw [places_append, places_cons_free]
          exact isOld
        have bounds := holds.place_bounds inRow
        have same := untouched place isOld place.1 (Nat.le_refl _) (by omega)
        rw [same.1, same.2]
        exact holds.headers place inRow
      rcases member with isLeft | isOwn | isRight
      · exact old (List.mem_append_left _ isLeft)
      · have bit : after.xBlockAllocatedBit = 2 ^ 31 :=
          counts.bit.trans holds.bit
        rw [isOwn]
        dsimp only
        rw [PsramHeap.handOver_next, PsramHeap.handOver_size, if_pos rfl,
          if_pos rfl, own, bit]
        exact ⟨rfl, or_top_bit 31 _ takenLow⟩
      · exact old (List.mem_append_right _ isRight)
    · have free : after.xFreeBytesRemaining =
          freeTotal (left ++ ⟨size, false⟩ :: right) :=
        counts.free.trans holds.free
      have carved := freeTotal_carve 32 wanted size right fits
      change after.xFreeBytesRemaining -
        after.size (blockStart layout left) = _
      rw [free, own]
      rw [freeTotal_append, freeTotal_cons, freeTotal_append]
      simp only [Bool.false_eq_true, if_false]
      omega
    · exact counts.bit.trans holds.bit
  · have minimum : after.xMinimumEverFreeBytesRemaining =
        heap.xMinimumEverFreeBytesRemaining := counts.minimum
    have least (one other : Nat) :
        (if one < other then one else other) = min other one := by
      split <;> omega
    rw [← minimum]
    exact least _ _

end Take

end XR872.Psram
