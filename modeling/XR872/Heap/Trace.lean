/-
The trace of the heap: wrappers around `malloc`, `realloc` and `free`.

Each keeps a table of the blocks there are, and has four bytes more of a block
than was asked for, with a guard word in them. What the real allocator answers
is an input.
-/

import XR872.Library.Run
import XR872.Library.Slots

namespace XR872.Heap

open Slots

/-- An address; zero is `NULL`. -/
abbrev Ptr := BitVec 32

def heapMemMaxCnt : Nat := 1024

def wrapMemMagicLen : BitVec 32 := 4

structure HeapMem where
  ptr : Ptr
  size : BitVec 32
deriving DecidableEq, Repr

/-- A block the program has, with the size it asked for last, and whether the
table was full when it was created. -/
structure Block where
  ptr : Ptr
  size : BitVec 32
  bornFull : Bool
deriving DecidableEq, Repr

/-- A guard word written or checked, as far behind the beginning of a block,
and the size that was requested for the block. -/
structure Guard where
  offset : Nat
  requested : Nat
deriving DecidableEq, Repr

/-- The variables of the trace; then what the real allocator has: the blocks,
and what was requested for each address last; and the guard words so far. -/
structure HeapTrace where
  mem : Nat → HeapMem
  entryCnt : Int
  entryCntMax : Int
  emptyIdx : Nat
  sum : BitVec 32
  sumMax : BitVec 32
  doReallocing : Bool
  blocks : List Block
  requested : Ptr → Nat
  guards : List Guard

namespace HeapTrace

def full (t : HeapTrace) : Bool :=
  (List.range heapMemMaxCnt).all fun index => (t.mem index).ptr ≠ 0

/-! ### The table -/

/-- `WRAP_MEM_SET_MAGIC` and `WRAP_MEM_CHK_MAGIC`: the place is what matters. -/
def magic (t : HeapTrace) (ptr : Ptr) (size : BitVec 32) : HeapTrace :=
  { t with
    guards :=
      { offset := size.toNat, requested := t.requested ptr } :: t.guards }

def fillEntry (t : HeapTrace) (i : Nat) (ptr : Ptr) (size : BitVec 32) :
    HeapTrace :=
  let sum := t.sum + size
  let entryCnt := t.entryCnt + 1
  { t with
    mem := Function.update t.mem i { ptr := ptr, size := size }
    entryCnt := entryCnt
    emptyIdx := i + 1
    sum := sum
    sumMax := if sum > t.sumMax then sum else t.sumMax
    entryCntMax :=
      if entryCnt > t.entryCntMax then entryCnt else t.entryCntMax }

/-- `wrap_malloc_add_entry`. -/
def addEntry (t : HeapTrace) (ptr : Ptr) (size : BitVec 32) : HeapTrace :=
  let t := t.magic ptr size
  match search (fun entry => entry.ptr = 0) t.mem
      (heapMemMaxCnt - t.emptyIdx) t.emptyIdx with
  | none => t
  | some i => t.fillEntry i ptr size

def clearEntry (t : HeapTrace) (i : Nat) : HeapTrace :=
  { t with
    mem := Function.update t.mem i { ptr := 0, size := 0 }
    entryCnt := t.entryCnt - 1
    emptyIdx := if i < t.emptyIdx then i else t.emptyIdx
    sum := t.sum - (t.mem i).size }

/-- `wrap_malloc_delete_entry`; no size for -1. -/
def deleteEntry (t : HeapTrace) (ptr : Ptr) :
    Option (BitVec 32) × HeapTrace :=
  match search (fun entry => entry.ptr = ptr) t.mem heapMemMaxCnt 0 with
  | none => (none, t)
  | some i =>
      let size := (t.mem i).size
      (some size, (t.magic ptr size).clearEntry i)

def replaceEntry (t : HeapTrace) (i : Nat) (newPtr : Ptr)
    (newSize : BitVec 32) : HeapTrace :=
  let sum := t.sum - (t.mem i).size + newSize
  { t with
    mem := Function.update t.mem i { ptr := newPtr, size := newSize }
    sum := sum
    sumMax := if sum > t.sumMax then sum else t.sumMax }

/-- `wrap_malloc_update_entry`. -/
def updateEntry (t : HeapTrace) (oldPtr newPtr : Ptr) (newSize : BitVec 32) :
    Option (BitVec 32) × HeapTrace :=
  let t := t.magic newPtr newSize
  match search (fun entry => entry.ptr = oldPtr) t.mem heapMemMaxCnt 0 with
  | none => (none, t)
  | some i => (some (t.mem i).size, t.replaceEntry i newPtr newSize)

/-! ### The real allocator -/

def Admits (t : HeapTrace) (old answer : Ptr) (realSize : BitVec 32) : Prop :=
  answer ≠ 0 ∧ answer.toNat + realSize.toNat ≤ 2 ^ 32 ∧
    ∀ block ∈ t.blocks, block.ptr ≠ old →
      block.ptr ≠ answer ∧
        (block.ptr.toNat + t.requested block.ptr ≤ answer.toNat ∨
          answer.toNat + realSize.toNat ≤ block.ptr.toNat)

instance (t : HeapTrace) (old answer : Ptr) (realSize : BitVec 32) :
    Decidable (t.Admits old answer realSize) :=
  inferInstanceAs (Decidable (_ ∧ _ ∧ _))

def Live (t : HeapTrace) (ptr : Ptr) : Prop :=
  ∃ block ∈ t.blocks, block.ptr = ptr

instance (t : HeapTrace) (ptr : Ptr) : Decidable (t.Live ptr) :=
  inferInstanceAs (Decidable (∃ block ∈ t.blocks, block.ptr = ptr))

def newBlock (t : HeapTrace) (ptr : Ptr) (size realSize : BitVec 32) :
    HeapTrace :=
  { t with
    blocks := { ptr := ptr, size := size, bornFull := t.full } :: t.blocks
    requested := Function.update t.requested ptr realSize.toNat }

def freeBlock (t : HeapTrace) (ptr : Ptr) : HeapTrace :=
  { t with blocks := t.blocks.filter fun block => block.ptr ≠ ptr }

def moveBlock (t : HeapTrace) (old ptr : Ptr) (size realSize : BitVec 32) :
    HeapTrace :=
  { t with
    blocks := t.blocks.map fun (block : Block) =>
      if block.ptr = old then { block with ptr := ptr, size := size }
      else block
    requested := Function.update t.requested ptr realSize.toNat }

/-- What `__real__malloc_r` has done when it has answered; what it does for
`__real__realloc_r` is done when that has answered. -/
def realMallocR (t : HeapTrace) (size realSize : BitVec 32) (answer : Ptr) :
    HeapTrace :=
  if t.doReallocing ∨ answer = 0 then t
  else t.newBlock answer size realSize

/-- What `__real__free_r` has done. -/
def realFreeR (t : HeapTrace) (ptr : Ptr) : HeapTrace :=
  if t.doReallocing then t else t.freeBlock ptr

/-- What `__real__realloc_r` has done when it has answered: a new block, a
block freed, or one that has moved, if only to where it was. -/
def realReallocR (t : HeapTrace) (ptr : Ptr) (size realSize : BitVec 32)
    (answer : Ptr) : HeapTrace :=
  if answer = 0 then
    if ptr ≠ 0 ∧ size = 0 then t.freeBlock ptr else t
  else if ptr = 0 then t.newBlock answer size realSize
  else t.moveBlock ptr answer size realSize

/-! ### The wrappers -/

def wrapMallocR (t : HeapTrace) (size : BitVec 32) (answer : Ptr) :
    HeapTrace :=
  let realSize := if !t.doReallocing then size + wrapMemMagicLen else size
  let t := t.realMallocR size realSize answer
  if !t.doReallocing then
    if answer ≠ 0 then t.addEntry answer size else t
  else t

def wrapFreeR (t : HeapTrace) (ptr : Ptr) : HeapTrace :=
  let t :=
    if !t.doReallocing ∧ ptr ≠ 0 then (t.deleteEntry ptr).2 else t
  t.realFreeR ptr

end HeapTrace

/-- What the real `realloc` may call. -/
inductive NestedCall where
  | malloc (size : BitVec 32) (answer : Ptr)
  | free (ptr : Ptr)
deriving DecidableEq, Repr

namespace HeapTrace

def nestedCall (t : HeapTrace) : NestedCall → HeapTrace
  | .malloc size answer => t.wrapMallocR size answer
  | .free ptr => t.wrapFreeR ptr

def wrapReallocR (t : HeapTrace) (ptr : Ptr) (size : BitVec 32)
    (nested : List NestedCall) (answer : Ptr) : HeapTrace :=
  let t := { t with doReallocing := true }
  let realSize := if size ≠ 0 then size + wrapMemMagicLen else size
  let t := nested.foldl nestedCall t
  let t := t.realReallocR ptr size realSize answer
  let t :=
    if ptr = 0 then
      if answer ≠ 0 then t.addEntry answer size else t
    else if size = 0 then (t.deleteEntry ptr).2
    else if answer ≠ 0 then (t.updateEntry ptr answer size).2
    else t
  { t with doReallocing := false }

end HeapTrace

/-- A call with what the real allocator answers. -/
inductive HeapCall where
  | malloc (size : BitVec 32) (answer : Ptr)
  | realloc (ptr : Ptr) (size : BitVec 32) (nested : List NestedCall)
      (answer : Ptr)
  | free (ptr : Ptr)

/-- What the real `realloc` is asked for. -/
def reallocSize (size : BitVec 32) : BitVec 32 :=
  if size ≠ 0 then size + wrapMemMagicLen else size

/-- Calls on `NULL` or a block there is, answered as an allocator does. -/
def HeapCall.Valid (t : HeapTrace) : HeapCall → Prop
  | .malloc size answer =>
      answer = 0 ∨ t.Admits 0 answer (size + wrapMemMagicLen)
  | .realloc ptr size _ answer =>
      (ptr = 0 ∨ t.Live ptr) ∧
        (answer = 0 ∨ t.Admits ptr answer (reallocSize size))
  | .free ptr => ptr = 0 ∨ t.Live ptr

instance (t : HeapTrace) (call : HeapCall) : Decidable (call.Valid t) :=
  match call with
  | .malloc _ _ => inferInstanceAs (Decidable (_ ∨ _))
  | .realloc _ _ _ _ => inferInstanceAs (Decidable ((_ ∨ _) ∧ (_ ∨ _)))
  | .free _ => inferInstanceAs (Decidable (_ ∨ _))

/-- Other calls are not made. -/
def heapStep (t : HeapTrace) (call : HeapCall) : HeapTrace :=
  if call.Valid t then
    match call with
    | .malloc size answer => t.wrapMallocR size answer
    | .realloc ptr size nested answer => t.wrapReallocR ptr size nested answer
    | .free ptr => t.wrapFreeR ptr
  else t

/-- Before the first call. -/
def heapStart : HeapTrace where
  mem := fun _ => { ptr := 0, size := 0 }
  entryCnt := 0
  entryCntMax := 0
  emptyIdx := 0
  sum := 0
  sumMax := 0
  doReallocing := false
  blocks := []
  requested := fun _ => 0
  guards := []

end XR872.Heap
