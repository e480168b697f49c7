/-
The heap in the external memory.

Every block begins with its link; the links of the free blocks are a list in the
order of the addresses. What a block's owner stores behind the link may be
anything. The list is read through the links alone, and an insertion changes no
link but those of the list and of the block that is put into it.
-/

import XR872.Library.FreeList
import XR872.Library.MachineInt

namespace XR872.Psram

/-- `psram_BlockLink_t`. -/
structure BlockLink where
  pxNextFreeBlock : Nat
  xBlockSize : Nat
deriving DecidableEq, Repr

/-- Where the linker puts the heap: `__psram_end__`, `IDCACHE_END_ADDR` and the
address of `psram_xStart`, which is not in it. The top bit of an address or a
size of the external memory is never set. -/
structure HeapLayout where
  psramEnd : Nat
  idcacheEnd : Nat
  xStart : Nat
  room : psramEnd + 64 ≤ idcacheEnd
  low : idcacheEnd ≤ 2 ^ 31
  positive : 0 < psramEnd
  outside : xStart < psramEnd ∨ idcacheEnd ≤ xStart

/-- `~` of a word of type `size_t`. -/
def complement (mask : Nat) : Nat := 2 ^ 32 - 1 - mask

def portByteAlignment : Nat := 16
def portByteAlignmentMask : Nat := 0x000f
def heapBitsPerByte : Nat := 8

/-- `sizeof( psram_BlockLink_t )`. -/
def sizeofBlockLink : Nat := 8

def heapStructSize : Nat :=
  (sizeofBlockLink + (portByteAlignment - 1)) &&&
    complement portByteAlignmentMask

def heapMinimumBlockSize : Nat := heapStructSize <<< 1

/-- The links are the memory, also where no block begins; `pxEnd` of zero is
`NULL`. -/
structure PsramHeap where
  links : Nat → BlockLink
  pxEnd : Nat
  xFreeBytesRemaining : Nat
  xMinimumEverFreeBytesRemaining : Nat
  xBlockAllocatedBit : Nat

namespace PsramHeap

def setNext (heap : PsramHeap) (node next : Nat) : PsramHeap :=
  { heap with
    links := Function.update heap.links node
      { heap.links node with pxNextFreeBlock := next } }

def setSize (heap : PsramHeap) (node size : Nat) : PsramHeap :=
  { heap with
    links := Function.update heap.links node
      { heap.links node with xBlockSize := size } }

end PsramHeap

/-- Before the first call; the memory holds anything. -/
def psramHeapReset (memory : Nat → BlockLink) : PsramHeap :=
  { links := memory
    pxEnd := 0
    xFreeBytesRemaining := 0
    xMinimumEverFreeBytesRemaining := 0
    xBlockAllocatedBit := 0 }

variable (layout : HeapLayout)

def alignedHeap : Nat :=
  if layout.psramEnd &&& portByteAlignmentMask ≠ 0 then
    (layout.psramEnd + (portByteAlignment - 1)) &&&
      complement portByteAlignmentMask
  else layout.psramEnd

def psramHeapInit (heap : PsramHeap) : PsramHeap :=
  let xTotalHeapSize := layout.idcacheEnd - layout.psramEnd -
    (alignedHeap layout - layout.psramEnd)
  let heap := heap.setNext layout.xStart (alignedHeap layout)
  let heap := heap.setSize layout.xStart 0
  let uxAddress := (alignedHeap layout + xTotalHeapSize - heapStructSize) &&&
    complement portByteAlignmentMask
  let heap := { heap with pxEnd := uxAddress }
  let heap := heap.setSize uxAddress 0
  let heap := heap.setNext uxAddress 0
  let size := uxAddress - alignedHeap layout
  let heap := heap.setSize (alignedHeap layout) size
  let heap := heap.setNext (alignedHeap layout) uxAddress
  { heap with
    xMinimumEverFreeBytesRemaining := size
    xFreeBytesRemaining := size
    xBlockAllocatedBit := 1 <<< (4 * heapBitsPerByte - 1) }

/-- Turns that are enough for any loop over the list: as many as there are
places for a block, and one. -/
def heapTurns : Nat := (layout.idcacheEnd - layout.psramEnd) / 16 + 2

/-- The loop of `psram_prvInsertBlockIntoFreeList`: the node behind which a
block belongs. `none` is a loop that does not end. -/
def findPlace (links : Nat → BlockLink) (block : Nat) : Nat → Nat → Option Nat
  | 0, _ => none
  | turns + 1, pxIterator =>
      if (links pxIterator).pxNextFreeBlock < block then
        findPlace links block turns (links pxIterator).pxNextFreeBlock
      else some pxIterator

/-- Behind the loop of `psram_prvInsertBlockIntoFreeList`. -/
def insertBehind (heap : PsramHeap) (pxIterator pxBlockToInsert : Nat) :
    PsramHeap :=
  let sizeOf := fun heap : PsramHeap => fun node =>
    (heap.links node).xBlockSize
  let joins := pxIterator + sizeOf heap pxIterator = pxBlockToInsert
  let block := if joins then pxIterator else pxBlockToInsert
  let heap :=
    if joins then
      heap.setSize pxIterator
        (sizeOf heap pxIterator + sizeOf heap pxBlockToInsert)
    else heap
  let next := (heap.links pxIterator).pxNextFreeBlock
  let heap :=
    if block + sizeOf heap block = next then
      if next ≠ heap.pxEnd then
        (heap.setSize block (sizeOf heap block + sizeOf heap next)).setNext
          block (heap.links next).pxNextFreeBlock
      else heap.setNext block heap.pxEnd
    else heap.setNext block next
  if pxIterator ≠ block then heap.setNext pxIterator block else heap

def psramPrvInsertBlockIntoFreeList (heap : PsramHeap)
    (pxBlockToInsert : Nat) : Option PsramHeap :=
  (findPlace heap.links pxBlockToInsert (heapTurns layout) layout.xStart).map
    fun pxIterator => insertBehind heap pxIterator pxBlockToInsert

/-- The loop of `psram_malloc`: `pxPreviousBlock` and `pxBlock`. -/
def findBlock (links : Nat → BlockLink) (xWantedSize : Nat) :
    Nat → Nat → Nat → Option (Nat × Nat)
  | 0, _, _ => none
  | turns + 1, pxPreviousBlock, pxBlock =>
      if (links pxBlock).xBlockSize < xWantedSize ∧
          (links pxBlock).pxNextFreeBlock ≠ 0 then
        findBlock links xWantedSize turns pxBlock
          (links pxBlock).pxNextFreeBlock
      else some (pxPreviousBlock, pxBlock)

/-- The size with the link and up to the alignment. -/
def blockSizeFor (xWantedSize : Nat) : Option Nat :=
  if 0 < xWantedSize then do
    let xWantedSize := (xWantedSize + heapStructSize) % 2 ^ 32
    if xWantedSize &&& portByteAlignmentMask ≠ 0 then
      let xWantedSize := (xWantedSize + (portByteAlignment -
        (xWantedSize &&& portByteAlignmentMask))) % 2 ^ 32
      guard (xWantedSize &&& portByteAlignmentMask = 0)
      return xWantedSize
    else return xWantedSize
  else some xWantedSize

/-- What a block has beyond the size and a least block is put back. -/
def splitBlock (heap : PsramHeap) (xWantedSize pxBlock : Nat) :
    Option PsramHeap :=
  let size := (heap.links pxBlock).xBlockSize
  if heapMinimumBlockSize < size - xWantedSize then do
    let pxNewBlockLink := pxBlock + xWantedSize
    guard (pxNewBlockLink &&& portByteAlignmentMask = 0)
    let heap := heap.setSize pxNewBlockLink (size - xWantedSize)
    let heap := heap.setSize pxBlock xWantedSize
    psramPrvInsertBlockIntoFreeList layout heap pxNewBlockLink
  else some heap

def handOver (heap : PsramHeap) (pxBlock : Nat) : PsramHeap :=
  let size := (heap.links pxBlock).xBlockSize
  let remaining := heap.xFreeBytesRemaining - size
  let heap :=
    { heap with
      xFreeBytesRemaining := remaining
      xMinimumEverFreeBytesRemaining :=
        if remaining < heap.xMinimumEverFreeBytesRemaining then remaining
        else heap.xMinimumEverFreeBytesRemaining }
  let heap := heap.setSize pxBlock (size ||| heap.xBlockAllocatedBit)
  heap.setNext pxBlock 0

/-- A block found for a size is taken out of the list. -/
def takeBlock (heap : PsramHeap) (xWantedSize pxPreviousBlock pxBlock : Nat) :
    Option (Nat × PsramHeap) := do
  let pvReturn := (heap.links pxPreviousBlock).pxNextFreeBlock + heapStructSize
  let heap := heap.setNext pxPreviousBlock (heap.links pxBlock).pxNextFreeBlock
  let heap ← splitBlock layout heap xWantedSize pxBlock
  guard (pvReturn &&& portByteAlignmentMask = 0)
  return (pvReturn, handOver heap pxBlock)

/-- The pointer returned, `NULL` as zero. `none` is a call that does not
return: an assertion fails, or a loop does not end. -/
def psramMalloc (heap : PsramHeap) (xWantedSize : Nat) :
    Option (Nat × PsramHeap) := do
  let heap := if heap.pxEnd = 0 then psramHeapInit layout heap else heap
  if xWantedSize &&& heap.xBlockAllocatedBit = 0 then
    let xWantedSize ← blockSizeFor xWantedSize
    if 0 < xWantedSize ∧ xWantedSize ≤ heap.xFreeBytesRemaining then
      let (pxPreviousBlock, pxBlock) ←
        findBlock heap.links xWantedSize (heapTurns layout) layout.xStart
          (heap.links layout.xStart).pxNextFreeBlock
      if pxBlock ≠ heap.pxEnd then
        takeBlock layout heap xWantedSize pxPreviousBlock pxBlock
      else return (0, heap)
    else return (0, heap)
  else return (0, heap)

def psramFree (heap : PsramHeap) (pv : Nat) : Option PsramHeap :=
  if pv ≠ 0 then do
    let pxLink := pv - heapStructSize
    let size := (heap.links pxLink).xBlockSize
    guard (size &&& heap.xBlockAllocatedBit ≠ 0)
    guard ((heap.links pxLink).pxNextFreeBlock = 0)
    let heap := heap.setSize pxLink (size &&& complement heap.xBlockAllocatedBit)
    let heap :=
      { heap with
        xFreeBytesRemaining :=
          heap.xFreeBytesRemaining + (heap.links pxLink).xBlockSize }
    psramPrvInsertBlockIntoFreeList layout heap pxLink
  else some heap

end XR872.Psram

/-! ### The list of the free blocks -/

namespace XR872.Psram

open FreeLists
open MachineInts

namespace PsramHeap

variable (heap : PsramHeap)

def next (node : Nat) : Nat := (heap.links node).pxNextFreeBlock

def size (node : Nat) : Nat := (heap.links node).xBlockSize

@[simp] theorem setNext_pxEnd (node value : Nat) :
    (heap.setNext node value).pxEnd = heap.pxEnd := rfl

@[simp] theorem setSize_pxEnd (node value : Nat) :
    (heap.setSize node value).pxEnd = heap.pxEnd := rfl

@[simp] theorem setNext_free (node value : Nat) :
    (heap.setNext node value).xFreeBytesRemaining =
      heap.xFreeBytesRemaining := rfl

@[simp] theorem setSize_free (node value : Nat) :
    (heap.setSize node value).xFreeBytesRemaining =
      heap.xFreeBytesRemaining := rfl

@[simp] theorem setNext_minimum (node value : Nat) :
    (heap.setNext node value).xMinimumEverFreeBytesRemaining =
      heap.xMinimumEverFreeBytesRemaining := rfl

@[simp] theorem setSize_minimum (node value : Nat) :
    (heap.setSize node value).xMinimumEverFreeBytesRemaining =
      heap.xMinimumEverFreeBytesRemaining := rfl

@[simp] theorem setNext_bit (node value : Nat) :
    (heap.setNext node value).xBlockAllocatedBit =
      heap.xBlockAllocatedBit := rfl

@[simp] theorem setSize_bit (node value : Nat) :
    (heap.setSize node value).xBlockAllocatedBit =
      heap.xBlockAllocatedBit := rfl

theorem links_setNext (node value : Nat) :
    (heap.setNext node value).links =
      Function.update heap.links node ⟨value, heap.size node⟩ := rfl

theorem links_setSize (node value : Nat) :
    (heap.setSize node value).links =
      Function.update heap.links node ⟨heap.next node, value⟩ := rfl

@[simp] theorem setNext_next (node value other : Nat) :
    (heap.setNext node value).next other =
      if other = node then value else heap.next other := by
  unfold next
  rw [links_setNext, Function.update_apply]
  split <;> rfl

@[simp] theorem setNext_size (node value other : Nat) :
    (heap.setNext node value).size other = heap.size other := by
  unfold size
  rw [links_setNext, Function.update_apply]
  split
  · next same => rw [same]; rfl
  · rfl

@[simp] theorem setSize_next (node value other : Nat) :
    (heap.setSize node value).next other = heap.next other := by
  unfold next
  rw [links_setSize, Function.update_apply]
  split
  · next same => rw [same]; rfl
  · rfl

@[simp] theorem setSize_size (node value other : Nat) :
    (heap.setSize node value).size other =
      if other = node then value else heap.size other := by
  unfold size
  rw [links_setSize, Function.update_apply]
  split <;> rfl

theorem link_eq (node : Nat) :
    heap.links node = ⟨heap.next node, heap.size node⟩ := rfl

structure SameCounts (after : PsramHeap) : Prop where
  pxEnd : after.pxEnd = heap.pxEnd
  free : after.xFreeBytesRemaining = heap.xFreeBytesRemaining
  minimum : after.xMinimumEverFreeBytesRemaining =
    heap.xMinimumEverFreeBytesRemaining
  bit : after.xBlockAllocatedBit = heap.xBlockAllocatedBit

end PsramHeap

/-! ### The arithmetic of `size_t` -/

theorem heapStructSize_eq : heapStructSize = 16 := by decide

theorem heapMinimumBlockSize_eq : heapMinimumBlockSize = 32 := by decide

theorem and_alignmentMask (value : Nat) :
    value &&& portByteAlignmentMask = value % 16 :=
  Nat.and_two_pow_sub_one_eq_mod value 4

theorem and_complement_alignmentMask (value : Nat) (low : value < 2 ^ 32) :
    value &&& complement portByteAlignmentMask = value - value % 16 :=
  and_high_bits 32 4 value (by omega) low

/-- The size with the link and up to the alignment. -/
def roundUp (wanted : Nat) : Nat := (wanted + 16 + 15) / 16 * 16

theorem blockSizeFor_eq (wanted : Nat) (positive : 0 < wanted)
    (low : wanted < 2 ^ 31) : blockSizeFor wanted = some (roundUp wanted) := by
  unfold blockSizeFor roundUp
  rw [if_pos positive, heapStructSize_eq]
  simp only [and_alignmentMask, portByteAlignment]
  rw [Nat.mod_eq_of_lt (a := wanted + 16) (by omega)]
  split
  · next odd =>
      have small : wanted + 16 + (16 - (wanted + 16) % 16) < 2 ^ 32 := by omega
      rw [Nat.mod_eq_of_lt small]
      have whole : (wanted + 16 + (16 - (wanted + 16) % 16)) % 16 = 0 := by
        omega
      simp only [guard, whole, if_true]
      change some _ = some _
      congr 1
      omega
  · change some _ = some _
    congr 1
    omega

/-! ### The insertion -/

theorem findPlace_eq (heap : PsramHeap) (block stop turns node : Nat)
    (left right : List (Nat × Nat))
    (linked : Linked heap.next heap.size node (left ++ right) stop)
    (before : ∀ place ∈ left, place.1 < block)
    (behind : ∀ place ∈ right, block ≤ place.1) (last : block ≤ stop)
    (enough : left.length < turns) :
    findPlace heap.links block turns node = some (lastNode node left) := by
  induction left generalizing node turns with
  | nil =>
      cases turns with
      | zero => omega
      | succ turns =>
          have next := linked.next_eq
          have stays : ¬(heap.links node).pxNextFreeBlock < block := by
            change ¬heap.next node < block
            rw [next]
            cases right with
            | nil => simpa using last
            | cons place rest => simpa using behind place List.mem_cons_self
          rw [findPlace, if_neg stays, lastNode_nil]
  | cons place rest ih =>
      cases turns with
      | zero => omega
      | succ turns =>
          have next : (heap.links node).pxNextFreeBlock = place.1 := linked.1
          have lower := before place List.mem_cons_self
          rw [findPlace, next, if_pos lower, lastNode_cons]
          apply ih turns place.1 linked.2.2
          · intro other member
            exact before other (List.mem_cons_of_mem place member)
          · simpa using enough

section Insert

variable (heap : PsramHeap) (place block : Nat)

def Joins : Prop := place + heap.size place = block

instance : Decidable (Joins heap place block) :=
  inferInstanceAs (Decidable (_ = _))

/-- The node of the joined block, and its size before it is joined with what is
behind it. -/
def joined : Nat := if Joins heap place block then place else block

def joinedSize : Nat :=
  if Joins heap place block then heap.size place + heap.size block
  else heap.size block

structure Inserted (after : PsramHeap) : Prop where
  counts : heap.SameCounts after
  next_joined : after.next (joined heap place block) =
    if joined heap place block + joinedSize heap place block =
        heap.next place then
      if heap.next place ≠ heap.pxEnd then heap.next (heap.next place)
      else heap.pxEnd
    else heap.next place
  size_joined : after.size (joined heap place block) =
    if joined heap place block + joinedSize heap place block =
        heap.next place ∧ heap.next place ≠ heap.pxEnd then
      joinedSize heap place block + heap.size (heap.next place)
    else joinedSize heap place block
  next_place : ¬Joins heap place block → after.next place = block
  next_other : ∀ node, node ≠ joined heap place block → node ≠ place →
    after.next node = heap.next node
  size_other : ∀ node, node ≠ joined heap place block →
    after.size node = heap.size node

theorem insertBehind_inserted (apart : place ≠ block)
    (nextPlace : heap.next place ≠ place) :
    Inserted heap place block (insertBehind heap place block) := by
  have fold (some_ : PsramHeap) (node : Nat) :
      (some_.links node).xBlockSize = some_.size node := rfl
  have fold' (some_ : PsramHeap) (node : Nat) :
      (some_.links node).pxNextFreeBlock = some_.next node := rfl
  have apart' : block ≠ place := Ne.symm apart
  unfold insertBehind
  simp only [fold, fold']
  by_cases joins : place + heap.size place = block
  · have isJoined : Joins heap place block := joins
    simp only [joins, if_true]
    by_cases touches : place + (heap.size place + heap.size block) =
        heap.next place
    · by_cases last : heap.next place = heap.pxEnd
      · constructor <;>
          simp_all [joined, joinedSize, Joins]
        constructor <;> simp
      · constructor <;>
          simp_all [joined, joinedSize, Joins]
        constructor <;> simp
    · constructor <;>
        simp_all [joined, joinedSize, Joins]
      constructor <;> simp
  · have isApart : ¬Joins heap place block := joins
    simp only [joins, if_false]
    by_cases touches : block + heap.size block = heap.next place
    · by_cases last : heap.next place = heap.pxEnd
      · constructor <;>
          simp_all [joined, joinedSize, Joins]
        constructor <;> simp
      · constructor <;>
          simp_all [joined, joinedSize, Joins]
        constructor <;> simp
    · constructor <;>
        simp_all [joined, joinedSize, Joins]
      constructor <;> simp

end Insert

variable {layout : HeapLayout}

structure FreeList (layout : HeapLayout) (heap : PsramHeap)
    (places : List (Nat × Nat)) : Prop where
  linked : Linked heap.next heap.size layout.xStart places heap.pxEnd
  start_size : heap.size layout.xStart = 0
  nodup : (layout.xStart :: places.map Prod.fst).Nodup
  no_end : heap.pxEnd ∉ layout.xStart :: places.map Prod.fst

section Spec

theorem FreeList.congr {heap after : PsramHeap} {places : List (Nat × Nat)}
    (list : FreeList layout heap places) (pxEnd : after.pxEnd = heap.pxEnd)
    (same : ∀ node ∈ layout.xStart :: places.map Prod.fst,
      after.next node = heap.next node ∧ after.size node = heap.size node) :
    FreeList layout after places := by
  have first := same layout.xStart List.mem_cons_self
  refine ⟨?_, first.2.trans list.start_size, list.nodup, ?_⟩
  · rw [pxEnd]
    apply list.linked.congr first.1
    intro place member
    exact same _ (List.mem_cons_of_mem _ (List.mem_map_of_mem member))
  · rw [pxEnd]
    exact list.no_end

theorem FreeList.unlink {heap : PsramHeap} {left right : List (Nat × Nat)}
    {place : Nat × Nat} (list : FreeList layout heap (left ++ place :: right)) :
    FreeList layout
      (heap.setNext (lastNode layout.xStart left) (heap.next place.1))
      (left ++ right) := by
  obtain ⟨toLeft, toPlace⟩ :=
    (linked_append _ _ left (place :: right)).mp list.linked
  have sublist : (layout.xStart :: (left ++ right).map Prod.fst).Sublist
      (layout.xStart :: (left ++ place :: right).map Prod.fst) :=
    (((List.Sublist.refl left).append
      (List.sublist_cons_self place right)).map Prod.fst).cons_cons _
  have distinct := list.nodup
  rw [List.map_append, ← List.cons_append] at distinct
  have inFront := lastNode_mem_cons layout.xStart left
  refine ⟨?_, ?_, list.nodup.sublist sublist, ?_⟩
  · rw [linked_append]
    constructor
    · apply toLeft.redirect
      · rw [PsramHeap.setNext_next, if_pos rfl]
        exact toPlace.2.2.next_eq
      · intro other differ member
        rw [PsramHeap.setNext_next, if_neg differ]
      · intro other member
        rw [PsramHeap.setNext_size]
      · exact (List.nodup_append.mp distinct).1
    · apply toPlace.2.2.congr
      · rw [PsramHeap.setNext_next, if_pos rfl]
      · intro other member
        have apart : other.1 ≠ lastNode layout.xStart left := by
          intro same
          exact (List.nodup_append.mp distinct).2.2 _ inFront _
            (List.mem_cons_of_mem _ (List.mem_map_of_mem member)) same.symm
        rw [PsramHeap.setNext_next, if_neg apart, PsramHeap.setNext_size]
        exact ⟨rfl, rfl⟩
  · rw [PsramHeap.setNext_size]
    exact list.start_size
  · intro member
    exact list.no_end (sublist.subset member)

variable {heap after : PsramHeap} {block length : Nat}
  {left right : List (Nat × Nat)}

theorem FreeList.lastNode_mem (list : FreeList layout heap (left ++ right)) :
    lastNode layout.xStart left ∈ layout.xStart :: left.map Prod.fst ∧
      lastNode layout.xStart left ≠ heap.pxEnd := by
  have inFront := lastNode_mem_cons layout.xStart left
  refine ⟨inFront, ?_⟩
  intro same
  apply list.no_end
  rw [← same, List.map_append, ← List.cons_append]
  exact List.mem_append_left _ inFront

theorem FreeList.lastNode_apart (list : FreeList layout heap (left ++ right))
    (place : Nat × Nat) (member : place ∈ right) :
    place.1 ≠ lastNode layout.xStart left := by
  have distinct := list.nodup
  rw [List.map_append, ← List.cons_append] at distinct
  intro same
  exact (List.nodup_append.mp distinct).2.2 _ list.lastNode_mem.1 _
    (List.mem_map_of_mem member) same.symm

theorem FreeList.firstNode_apart (list : FreeList layout heap (left ++ right)) :
    firstNode right heap.pxEnd ≠ lastNode layout.xStart left := by
  cases right with
  | nil => exact list.lastNode_mem.2.symm
  | cons place rest => exact list.lastNode_apart place List.mem_cons_self

variable (list : FreeList layout heap (left ++ right))
  (inserted : Inserted heap (lastNode layout.xStart left) block after)
  (behind : ∀ place ∈ right, block < place.1)

include list inserted behind in
theorem inserted_tail (node : Nat)
    (first : after.next node =
      joined heap (lastNode layout.xStart left) block) :
    Linked after.next after.size node
      (joinBehind (joined heap (lastNode layout.xStart left) block)
        (joinedSize heap (lastNode layout.xStart left) block) right)
      heap.pxEnd := by
  have toRight := ((linked_append _ _ left right).mp list.linked).2
  have nextPlace := toRight.next_eq
  have nextJoined := inserted.next_joined
  have sizeJoined := inserted.size_joined
  rw [nextPlace] at nextJoined sizeJoined
  apply joinBehind_linked toRight first
  · intro place member
    have notPlace := list.lastNode_apart place member
    have notJoined : place.1 ≠
        joined heap (lastNode layout.xStart left) block := by
      unfold joined
      split
      · exact notPlace
      · have higher := behind place member
        omega
    exact ⟨inserted.next_other _ notJoined notPlace,
      inserted.size_other _ notJoined⟩
  · intro touch some_
    have notEnd : firstNode right heap.pxEnd ≠ heap.pxEnd := by
      cases right with
      | nil => exact absurd rfl some_
      | cons place rest =>
          intro same
          apply list.no_end
          rw [← same]
          simp
    rw [nextJoined, sizeJoined, if_pos touch, if_pos notEnd,
      if_pos ⟨touch, notEnd⟩]
    exact ⟨rfl, rfl⟩
  · intro none_
    rw [nextJoined, sizeJoined]
    cases none_ with
    | inl apart =>
        rw [if_neg apart, if_neg (fun both => apart both.1)]
        exact ⟨rfl, rfl⟩
    | inr empty =>
        rw [empty, firstNode_nil]
        simp

variable (size : heap.size block = length)
  (before : ∀ place ∈ left, place.1 < block)
  (notStart : layout.xStart ≠ block)

include list inserted behind size before notStart in
theorem inserted_linked :
    Linked after.next after.size layout.xStart
        (join left block length right) heap.pxEnd ∧
      after.size layout.xStart = 0 := by
  have tail := inserted_tail list inserted behind
  have toLeft := ((linked_append _ _ left right).mp list.linked).1
  have distinct := list.nodup
  rw [List.map_append, ← List.cons_append] at distinct
  have leftDistinct := (List.nodup_append.mp distinct).1
  cases List.eq_nil_or_concat left with
  | inl empty =>
      subst empty
      have apart : ¬Joins heap layout.xStart block := by
        unfold Joins
        rw [list.start_size]
        exact notStart
      have isBlock : joined heap layout.xStart block = block := if_neg apart
      have isLength : joinedSize heap layout.xStart block = length :=
        (if_neg apart).trans size
      constructor
      · have first := tail layout.xStart
          ((inserted.next_place apart).trans isBlock.symm)
        rw [lastNode_nil, isBlock, isLength] at first
        exact first
      · rw [inserted.size_other, list.start_size]
        rw [lastNode_nil, joined, if_neg apart]
        exact notStart
  | inr concat =>
      obtain ⟨start, place, same⟩ := concat
      rw [List.concat_eq_append] at same
      subst same
      rw [lastNode_concat] at inserted tail
      have placeSize := toLeft.size_of_mem place (by simp)
      rw [List.map_append, ← List.cons_append] at leftDistinct
      have startApart : ∀ node ∈ layout.xStart :: start.map Prod.fst,
          node ≠ place.1 ∧ node ≠ block := by
        intro node member
        constructor
        · intro atPlace
          exact (List.nodup_append.mp leftDistinct).2.2 _ member _
            List.mem_cons_self atPlace
        · cases List.mem_cons.mp member with
          | inl atStart => rw [atStart]; exact notStart
          | inr inStart =>
              obtain ⟨other, isStart, node_eq⟩ := List.mem_map.mp inStart
              have lower := before other (List.mem_append_left _ isStart)
              omega
      have notJoined : ∀ node ∈ layout.xStart :: start.map Prod.fst,
          node ≠ joined heap place.1 block := by
        intro node member
        unfold joined
        split
        · exact (startApart node member).1
        · exact (startApart node member).2
      have sameNext : ∀ node ∈ layout.xStart :: start.map Prod.fst,
          after.next node = heap.next node := by
        intro node member
        exact inserted.next_other node (notJoined node member)
          (startApart node member).1
      have sameSize : ∀ node ∈ layout.xStart :: start.map Prod.fst,
          after.size node = heap.size node := by
        intro node member
        exact inserted.size_other node (notJoined node member)
      constructor
      · rw [join_concat]
        by_cases touch : place.1 + place.2 = block
        · have joins : Joins heap place.1 block := by
            unfold Joins
            rw [placeSize]
            exact touch
          have isPlace : joined heap place.1 block = place.1 := if_pos joins
          have isSize : joinedSize heap place.1 block = place.2 + length := by
            unfold joinedSize
            rw [if_pos joins, placeSize, size]
          rw [if_pos touch, linked_append, firstNode_joinBehind]
          have toStart := ((linked_append _ _ start [place]).mp toLeft)
          constructor
          · apply toStart.1.congr (sameNext _ List.mem_cons_self)
            intro other member
            have inStart := List.mem_cons_of_mem layout.xStart
              (List.mem_map_of_mem (f := Prod.fst) member)
            exact ⟨sameNext _ inStart, sameSize _ inStart⟩
          · have link := (sameNext (lastNode layout.xStart start)
              (lastNode_mem_cons layout.xStart start)).trans toStart.2.1
            have first := tail _ (link.trans isPlace.symm)
            rw [isPlace, isSize] at first
            exact first
        · have apart : ¬Joins heap place.1 block := by
            unfold Joins
            rw [placeSize]
            exact touch
          have isBlock : joined heap place.1 block = block := if_neg apart
          have isLength : joinedSize heap place.1 block = length :=
            (if_neg apart).trans size
          have link := inserted.next_place apart
          have first := tail place.1 (link.trans isBlock.symm)
          rw [isBlock, isLength] at first
          rw [if_neg touch, ← List.singleton_append, ← List.append_assoc,
            linked_append, firstNode_joinBehind, lastNode_concat]
          refine ⟨?_, first⟩
          apply toLeft.redirect
          · rw [lastNode_concat]
            exact link
          · intro other differ member
            rw [lastNode_concat] at differ
            apply sameNext
            rw [List.map_append, ← List.mem_cons, ← List.cons_append,
              List.mem_append, List.map_singleton, List.mem_singleton] at member
            exact member.resolve_right differ
          · intro other member
            cases List.mem_append.mp member with
            | inl inStart =>
                exact sameSize _ (List.mem_cons_of_mem layout.xStart
                  (List.mem_map_of_mem (f := Prod.fst) inStart))
            | inr last =>
                rw [List.mem_singleton.mp last]
                apply inserted.size_other
                rw [isBlock]
                have lower := before place (by simp)
                omega
          · rw [List.map_append, ← List.cons_append]
            exact leftDistinct
      · rw [sameSize _ List.mem_cons_self, list.start_size]

end Spec

/-- An insertion into its place joins the block with what it touches, and
changes the links of the list and of the block only. -/
theorem insert_spec (heap : PsramHeap) (block length : Nat)
    (left right : List (Nat × Nat))
    (list : FreeList layout heap (left ++ right))
    (size : heap.size block = length)
    (before : ∀ place ∈ left, place.1 < block)
    (behind : ∀ place ∈ right, block < place.1) (last : block < heap.pxEnd)
    (notStart : layout.xStart ≠ block)
    (enough : left.length < heapTurns layout) :
    ∃ after, psramPrvInsertBlockIntoFreeList layout heap block = some after ∧
      Linked after.next after.size layout.xStart
        (join left block length right) heap.pxEnd ∧
      after.size layout.xStart = 0 ∧ heap.SameCounts after ∧
      ∀ node, node ≠ layout.xStart → node ≠ block →
        node ∉ (left ++ right).map Prod.fst →
        after.next node = heap.next node ∧ after.size node = heap.size node := by
  have place := findPlace_eq heap block heap.pxEnd (heapTurns layout)
    layout.xStart left right list.linked before
    (fun place member => Nat.le_of_lt (behind place member))
    (Nat.le_of_lt last) enough
  have nextPlace :=
    ((linked_append _ _ left right).mp list.linked).2.next_eq
  have notBlock : lastNode layout.xStart left ≠ block := by
    cases List.mem_cons.mp list.lastNode_mem.1 with
    | inl start => rw [start]; exact notStart
    | inr member =>
        obtain ⟨other, isLeft, same⟩ := List.mem_map.mp member
        have lower := before other isLeft
        omega
  have inserted := insertBehind_inserted heap (lastNode layout.xStart left) block
    notBlock (by rw [nextPlace]; exact list.firstNode_apart)
  have linked := inserted_linked list inserted behind size before notStart
  refine ⟨insertBehind heap (lastNode layout.xStart left) block, ?_, linked.1,
    linked.2, inserted.counts, ?_⟩
  · unfold psramPrvInsertBlockIntoFreeList
    rw [place]
    rfl
  · intro node notFirst isOther outside
    have notPlace : node ≠ lastNode layout.xStart left := by
      intro same
      cases List.mem_cons.mp list.lastNode_mem.1 with
      | inl start => exact notFirst (same.trans start)
      | inr member =>
          apply outside
          rw [same, List.map_append]
          exact List.mem_append_left _ member
    have notJoined :
        node ≠ joined heap (lastNode layout.xStart left) block := by
      unfold joined
      split
      · exact notPlace
      · exact isOther
    exact ⟨inserted.next_other node notJoined notPlace,
      inserted.size_other node notJoined⟩

end XR872.Psram
