/-
The heap and those who use it.

Every block that was handed out and not yet given back is recorded with the size
asked for. Its holder may store anything in it at any time.
-/

import XR872.Psram.HeapCalls

namespace XR872.Psram

open Arenas
open FreeLists

/-- `live` are the pointers held, and `least` the fewest free bytes after any
call so far. -/
structure HeapUse where
  heap : PsramHeap
  live : List (Nat × Nat)
  least : Option Nat

inductive HeapCall
  | malloc (xWantedSize : Nat)
  | free (pv : Nat)
  | store (pv length : Nat) (memory : Nat → BlockLink)

/-- A pointer given back was handed out or is `NULL`, and something is stored
only in a block that is held. -/
def HeapUse.Permits (state : HeapUse) : HeapCall → Prop
  | .malloc xWantedSize => xWantedSize < 2 ^ 32
  | .free pv => pv = 0 ∨ pv ∈ state.live.map Prod.fst
  | .store pv length _ => (pv, length) ∈ state.live

def storeInto (heap : PsramHeap) (pv length : Nat)
    (memory : Nat → BlockLink) : PsramHeap :=
  { heap with
    links := fun node =>
      if pv < node + sizeofBlockLink ∧ node < pv + length then memory node
      else heap.links node }

def lessened (least : Option Nat) (free : Nat) : Nat :=
  match least with
  | some before => min before free
  | none => free

def heapCall (layout : HeapLayout) (state : HeapUse) :
    HeapCall → Option HeapUse
  | .malloc xWantedSize =>
      (psramMalloc layout state.heap xWantedSize).map fun (pv, heap) =>
        { heap := heap
          live := if pv = 0 then state.live else (pv, xWantedSize) :: state.live
          least := some (lessened state.least heap.xFreeBytesRemaining) }
  | .free pv =>
      (psramFree layout state.heap pv).map fun heap =>
        { state with
          heap := heap
          live := state.live.filter fun held => held.1 ≠ pv }
  | .store pv length memory =>
      some { state with heap := storeInto state.heap pv length memory }

inductive Reached (layout : HeapLayout) (memory : Nat → BlockLink) :
    HeapUse → Prop
  | start : Reached layout memory ⟨psramHeapReset memory, [], none⟩
  | call (state after : HeapUse) (call : HeapCall)
      (reached : Reached layout memory state) (permitted : state.Permits call)
      (returns : heapCall layout state call = some after) :
      Reached layout memory after

variable {layout : HeapLayout}

/-! ### The blocks held are the used blocks of the row -/

structure Serves (layout : HeapLayout) (state : HeapUse)
    (blocks : List Block) : Prop where
  holds : HeapHolds layout state.heap blocks
  pointers : (state.live.map Prod.fst).Perm
    ((places true (alignedHeap layout) blocks).map fun place => place.1 + 16)
  sizes : ∀ held ∈ state.live, ∀ place ∈ places true (alignedHeap layout) blocks,
    held.1 = place.1 + 16 → 0 < held.2 ∧ roundUp held.2 ≤ place.2 ∧
      place.2 ≤ roundUp held.2 + 32
  least : state.least = some state.heap.xMinimumEverFreeBytesRemaining
  least_le : state.heap.xMinimumEverFreeBytesRemaining ≤
    state.heap.xFreeBytesRemaining

def NoRoom (layout : HeapLayout) (blocks : List Block) (wanted : Nat) : Prop :=
  wanted = 0 ∨ 2 ^ 31 ≤ wanted ∨
    ∀ place ∈ places false (alignedHeap layout) blocks,
      place.2 < roundUp wanted

theorem exists_fit {blocks : List Block} {wanted : Nat}
    (room : ¬NoRoom layout blocks wanted) :
    0 < wanted ∧ wanted < 2 ^ 31 ∧ ∃ left size right,
      blocks = left ++ ⟨size, false⟩ :: right ∧ roundUp wanted ≤ size ∧
      ∀ place ∈ freeBefore layout left, place.2 < roundUp wanted := by
  have positive : wanted ≠ 0 := fun zero => room (Or.inl zero)
  have low : ¬2 ^ 31 ≤ wanted := fun high => room (Or.inr (Or.inl high))
  refine ⟨by omega, by omega, ?_⟩
  apply exists_first_fit (roundUp wanted) (alignedHeap layout) blocks
  by_contra none_
  apply room
  right
  right
  intro place member
  by_contra large
  exact none_ ⟨place, member, by omega⟩

namespace Serves

variable {state : HeapUse} {blocks : List Block}

theorem place_of_held (serves : Serves layout state blocks) (held : Nat × Nat)
    (member : held ∈ state.live) :
    ∃ place ∈ places true (alignedHeap layout) blocks,
      held.1 = place.1 + 16 ∧ 0 < held.2 ∧ roundUp held.2 ≤ place.2 ∧
        place.2 ≤ roundUp held.2 + 32 := by
  have pointer := serves.pointers.subset (List.mem_map_of_mem member)
  obtain ⟨place, isUsed, same⟩ := List.mem_map.mp pointer
  exact ⟨place, isUsed, same.symm, serves.sizes held member place isUsed same.symm⟩

theorem malloc_none (serves : Serves layout state blocks) (wanted : Nat)
    (word : wanted < 2 ^ 32) (none_ : NoRoom layout blocks wanted) :
    psramMalloc layout state.heap wanted = some (0, state.heap) ∧
      Serves layout { state with
        least := some (lessened state.least
          state.heap.xFreeBytesRemaining) } blocks := by
  refine ⟨malloc_refused blocks wanted serves.holds word none_,
    serves.holds, serves.pointers, serves.sizes, ?_, serves.least_le⟩
  have le := serves.least_le
  simp only [serves.least, lessened]
  congr 1
  omega

theorem malloc_some (serves : Serves layout state blocks) (wanted : Nat)
    (room : ¬NoRoom layout blocks wanted) :
    ∃ pv heap after, psramMalloc layout state.heap wanted = some (pv, heap) ∧
      pv ≠ 0 ∧
      Serves layout
        { heap := heap
          live := (pv, wanted) :: state.live
          least := some (lessened state.least heap.xFreeBytesRemaining) } after ∧
      ∀ place ∈ places true (alignedHeap layout) blocks,
        Untouched state.heap heap place := by
  obtain ⟨positive, low, left, size, right, split, fits, small⟩ :=
    exists_fit room
  subst split
  have old : places true (alignedHeap layout)
      (left ++ ⟨size, false⟩ :: right) =
        places true (alignedHeap layout) left ++
          places true (blockStart layout left + size) right := by
    rw [places_append, places_cons_free]
    rfl
  have new := used_carve layout left right size (roundUp wanted) fits
  obtain ⟨heap, run, holds, minimum, untouched⟩ :=
    malloc_taken wanted left right size serves.holds positive low fits small
  have block := block_bounds serves.holds
  have pointers := serves.pointers
  rw [old, List.map_append] at pointers
  refine ⟨blockStart layout left + 16, heap,
    left ++ carve 32 (roundUp wanted) size right, run, by omega, ?_, ?_⟩
  · constructor
    · exact holds
    · rw [new, List.map_append, List.map_cons, List.map_cons]
      exact (pointers.cons _).trans List.perm_middle.symm
    · have apart (place : Nat × Nat)
          (isUsed : place ∈ places true (alignedHeap layout) left ++
            places true (blockStart layout left + size) right) :
          place.1 ≠ blockStart layout left := by
        rw [← old] at isUsed
        have bounds := serves.holds.place_bounds isUsed
        have isFree : (blockStart layout left, size) ∈ places false
            (alignedHeap layout) (left ++ ⟨size, false⟩ :: right) := by
          rw [places_around]
          simp
        cases used_apart_free isUsed isFree with
        | inl before => dsimp only at before; omega
        | inr behind => dsimp only at behind; omega
      intro held isHeld place isUsed same
      rw [new, List.mem_append, List.mem_cons, or_left_comm,
        ← List.mem_append] at isUsed
      cases List.mem_cons.mp isHeld with
      | inl own =>
          rw [own] at same ⊢
          cases isUsed with
          | inl isNew =>
              rw [isNew]
              dsimp only [takenSize]
              split <;> omega
          | inr isOld =>
              have differ := apart place isOld
              omega
      | inr other =>
          cases isUsed with
          | inl isNew =>
              obtain ⟨place', isUsed', at_, _⟩ :=
                serves.place_of_held held other
              rw [old] at isUsed'
              have differ := apart place' isUsed'
              rw [isNew] at same
              omega
          | inr isOld =>
              rw [← old] at isOld
              exact serves.sizes held other place isOld same
    · rw [minimum]
      simp only [serves.least, lessened]
    · rw [minimum]
      exact Nat.min_le_right _ _
  · rw [old]
    exact untouched

theorem free_some (serves : Serves layout state blocks) (pv : Nat)
    (held : pv ∈ state.live.map Prod.fst) :
    ∃ heap after, psramFree layout state.heap pv = some heap ∧
      Serves layout
        { state with
          heap := heap
          live := state.live.filter fun held => held.1 ≠ pv } after ∧
      ∀ place ∈ places true (alignedHeap layout) blocks, place.1 + 16 ≠ pv →
        Untouched state.heap heap place := by
  obtain ⟨place, isUsed, same⟩ :=
    List.mem_map.mp (serves.pointers.subset held)
  obtain ⟨left, right, split, address⟩ := places_split isUsed
  have isBlock : pv = blockStart layout left + 16 := by
    rw [← same, address]
    rfl
  subst isBlock
  subst split
  have holds := serves.holds
  have old := used_around layout left right place.2
  obtain ⟨heap, run, after, minimum, untouched⟩ := free_spec holds
  have apart (other : Nat × Nat)
      (isOther : other ∈ places true (alignedHeap layout) left ++
        places true (blockStart layout left + place.2) right) :
      other.1 ≠ blockStart layout left :=
    (other_used_apart holds other isOther other.1 (Nat.le_refl _) (by
      have inRow : other ∈ places true (alignedHeap layout)
          (left ++ ⟨place.2, true⟩ :: right) := by
        rw [old, List.mem_append, List.mem_cons, or_left_comm,
          ← List.mem_append]
        exact Or.inr isOther
      have bounds := holds.place_bounds inRow
      omega)).2.1
  have rest : places true (alignedHeap layout) (release left place.2 right) =
      places true (alignedHeap layout) left ++
        places true (blockStart layout left + place.2) right :=
    used_release (alignedHeap layout) left place.2 right
  refine ⟨heap, release left place.2 right, run, ?_, ?_⟩
  · constructor
    · exact after
    · have all := serves.pointers
      rw [old] at all
      have kept := (all.trans (List.perm_middle.map _)).filter
        fun pointer => pointer ≠ blockStart layout left + 16
      have others : ∀ pointer ∈ (places true (alignedHeap layout)
          (release left place.2 right)).map fun place => place.1 + 16,
          decide (pointer ≠ blockStart layout left + 16) = true := by
        intro pointer member
        obtain ⟨other, isOther, at_⟩ := List.mem_map.mp member
        rw [rest] at isOther
        have differ := apart other isOther
        rw [decide_eq_true_eq]
        omega
      rw [List.filter_map, ← rest, List.map_cons,
        List.filter_cons_of_neg (by simp), List.filter_eq_self.mpr others]
        at kept
      exact kept
    · intro held isHeld other isOther at_
      apply serves.sizes held (List.mem_of_mem_filter isHeld) other _ at_
      rw [rest] at isOther
      rw [old, List.mem_append, List.mem_cons, or_left_comm,
        ← List.mem_append]
      exact Or.inr isOther
    · rw [minimum]
      exact serves.least
    · have le := serves.least_le
      have before := holds.free
      have now := after.free
      rw [freeTotal_append, freeTotal_cons] at before
      rw [freeTotal_release] at now
      simp only [if_true] at before
      dsimp only
      omega
  · intro other isOther differ
    rw [old, List.mem_append, List.mem_cons, or_left_comm,
      ← List.mem_append] at isOther
    cases isOther with
    | inl own =>
        rw [own] at differ
        exact absurd rfl differ
    | inr others => exact untouched other others

/-- What a holder stores in its block is none of the heap's links. -/
theorem store_serves (serves : Serves layout state blocks) (pv length : Nat)
    (memory : Nat → BlockLink) (held : (pv, length) ∈ state.live) :
    Serves layout
      { state with heap := storeInto state.heap pv length memory } blocks ∧
      ∀ place ∈ places true (alignedHeap layout) blocks, place.1 + 16 ≠ pv →
        Untouched state.heap (storeInto state.heap pv length memory) place := by
  obtain ⟨own, isOwn, at_, _, fits, _⟩ := serves.place_of_held _ held
  dsimp only at at_ fits
  have holds := serves.holds
  have ownBounds := holds.place_bounds isOwn
  have inside : own.1 + 16 + length ≤ own.1 + own.2 := by
    unfold roundUp at fits
    omega
  have same (node : Nat) (outside : node ≤ own.1 + 8 ∨ own.1 + own.2 ≤ node) :
      (storeInto state.heap pv length memory).links node =
        state.heap.links node := by
    change (if _ then _ else _) = _
    rw [if_neg]
    unfold sizeofBlockLink
    omega
  have others (place : Nat × Nat)
      (isUsed : place ∈ places true (alignedHeap layout) blocks)
      (differ : place.1 ≠ own.1) (node : Nat) (from_ : place.1 ≤ node)
      (to_ : node < place.1 + place.2) :
      (storeInto state.heap pv length memory).links node =
        state.heap.links node := by
    apply same
    cases used_apart_used differ isUsed isOwn with
    | inl before => omega
    | inr behind => omega
  have start : (storeInto state.heap pv length memory).links layout.xStart =
      state.heap.links layout.xStart := by
    apply same
    have bounds := heapBounds layout
    have first := bounds.first
    have last := bounds.last
    cases layout.outside with
    | inl before => omega
    | inr behind => omega
  have stop : (storeInto state.heap pv length memory).links (heapEnd layout) =
      state.heap.links (heapEnd layout) := by
    apply same
    omega
  constructor
  · constructor
    · constructor
      · exact holds.pxEnd
      · exact holds.fills
      · exact holds.whole
      · exact holds.filled
      · exact holds.settled
      · apply holds.linked.congr (congrArg BlockLink.pxNextFreeBlock start)
        intro place isFree
        have bounds := holds.place_bounds isFree
        have link := same place.1 (by
          cases used_apart_free isOwn isFree with
          | inl before => omega
          | inr behind => omega)
        exact ⟨congrArg BlockLink.pxNextFreeBlock link,
          congrArg BlockLink.xBlockSize link⟩
      · exact (congrArg BlockLink.xBlockSize start).trans holds.start_size
      · exact (congrArg BlockLink.pxNextFreeBlock stop).trans holds.end_next
      · exact (congrArg BlockLink.xBlockSize stop).trans holds.end_size
      · intro place isUsed
        have bounds := holds.place_bounds isUsed
        have header := holds.headers place isUsed
        have link : (storeInto state.heap pv length memory).links place.1 =
            state.heap.links place.1 := by
          by_cases differ : place.1 = own.1
          · exact same place.1 (by omega)
          · exact others place isUsed differ place.1 (Nat.le_refl _) (by omega)
        exact ⟨(congrArg BlockLink.pxNextFreeBlock link).trans header.1,
          (congrArg BlockLink.xBlockSize link).trans header.2⟩
      · exact holds.free
      · exact holds.bit
    · exact serves.pointers
    · exact serves.sizes
    · exact serves.least
    · exact serves.least_le
  · intro place isUsed differ node from_ to_
    have link := others place isUsed (by omega) node from_ to_
    exact ⟨congrArg BlockLink.pxNextFreeBlock link,
      congrArg BlockLink.xBlockSize link⟩

end Serves

/-! ### The first call sets the heap up -/

theorem malloc_first (heap : PsramHeap) (zero : heap.pxEnd = 0)
    (wanted : Nat) :
    psramMalloc layout heap wanted =
      psramMalloc layout (psramHeapInit layout heap) wanted := by
  have holds := init_holds layout heap
  unfold psramMalloc
  simp only [holds.ready]
  simp only [zero, if_true]

variable (layout) in
theorem init_serves (heap : PsramHeap) :
    Serves layout
      { heap := psramHeapInit layout heap
        live := []
        least := some (heapEnd layout - alignedHeap layout) }
      [⟨heapEnd layout - alignedHeap layout, false⟩] := by
  constructor
  · exact init_holds layout heap
  · simp
  · intro held member
    cases member
  · rfl
  · exact Nat.le_refl _

theorem Serves.free_le {state : HeapUse} {blocks : List Block}
    (serves : Serves layout state blocks) :
    state.heap.xFreeBytesRemaining ≤ heapEnd layout - alignedHeap layout := by
  have sum := used_add_freeTotal (alignedHeap layout) blocks
  have fills := serves.holds.fills
  rw [serves.holds.free]
  omega

/-! ### One call -/

def Sound (layout : HeapLayout) (state : HeapUse) : Prop :=
  (state.heap.pxEnd = 0 ∧ state.live = [] ∧ state.least = none) ∨
    ∃ blocks, Serves layout state blocks

/-- The call is by the holder of the block. -/
def HeapCall.Concerns (pv : Nat) : HeapCall → Prop
  | .malloc _ => False
  | .free pv' => pv' = pv
  | .store pv' _ _ => pv' = pv

/-- The holder still has the block, with all that is stored in it. -/
def Keeps (state after : HeapUse) (held : Nat × Nat) : Prop :=
  held ∈ after.live ∧ ∀ node, held.1 ≤ node →
    node + sizeofBlockLink ≤ held.1 + held.2 →
      after.heap.links node = state.heap.links node

theorem Serves.keeps {state after : HeapUse} {blocks : List Block}
    (serves : Serves layout state blocks) (held : Nat × Nat)
    (member : held ∈ state.live) (stays : held ∈ after.live)
    (untouched : ∀ place ∈ places true (alignedHeap layout) blocks,
      place.1 + 16 = held.1 → Untouched state.heap after.heap place) :
    Keeps state after held := by
  obtain ⟨place, isUsed, at_, _, fits, _⟩ := serves.place_of_held held member
  refine ⟨stays, ?_⟩
  intro node from_ to_
  have inside : 16 + held.2 ≤ place.2 := by
    unfold roundUp at fits
    omega
  unfold sizeofBlockLink at to_
  have same := untouched place isUsed at_.symm node (by omega) (by omega)
  rw [PsramHeap.link_eq, PsramHeap.link_eq, same.1, same.2]

theorem malloc_call (state : HeapUse) (blocks : List Block)
    (serves : Serves layout state blocks) (wanted : Nat)
    (word : wanted < 2 ^ 32) :
    ∃ pv heap, psramMalloc layout state.heap wanted = some (pv, heap) ∧
      (pv = 0 ↔ NoRoom layout blocks wanted) ∧
      Sound layout
        { heap := heap
          live := if pv = 0 then state.live else (pv, wanted) :: state.live
          least := some (lessened state.least heap.xFreeBytesRemaining) } ∧
      ∀ place ∈ places true (alignedHeap layout) blocks,
        Untouched state.heap heap place := by
  by_cases none_ : NoRoom layout blocks wanted
  · obtain ⟨run, after⟩ := serves.malloc_none wanted word none_
    exact ⟨0, state.heap, run, by simp [none_], Or.inr ⟨blocks, after⟩,
      fun place member node from_ to_ => ⟨rfl, rfl⟩⟩
  · obtain ⟨pv, heap, blocks', run, pointer, after, untouched⟩ :=
      serves.malloc_some wanted none_
    refine ⟨pv, heap, run, by simp [none_, pointer], ?_, untouched⟩
    rw [if_neg pointer]
    exact Or.inr ⟨blocks', after⟩

/-- Every call permitted returns, and what it does not concern it does not
change. -/
theorem call_spec (state : HeapUse) (call : HeapCall)
    (sound : Sound layout state) (permitted : state.Permits call) :
    ∃ after, heapCall layout state call = some after ∧ Sound layout after ∧
      ∀ held ∈ state.live, ¬call.Concerns held.1 → Keeps state after held := by
  cases sound with
  | inl fresh =>
      obtain ⟨zero, none_, first⟩ := fresh
      cases call with
      | malloc wanted =>
          obtain ⟨pv, heap, run, _, after, _⟩ := malloc_call _ _
            (init_serves layout state.heap) wanted permitted
          rw [← malloc_first state.heap zero] at run
          refine ⟨_, congrArg (Option.map _) run, ?_, ?_⟩
          · rw [none_, first]
            cases after with
            | inl unset => cases unset.2.2
            | inr served =>
                obtain ⟨blocks, serves⟩ := served
                have le := serves.free_le
                right
                refine ⟨blocks, serves.holds, serves.pointers, serves.sizes,
                  ?_, serves.least_le⟩
                rw [← serves.least]
                simp only [lessened] at le ⊢
                congr 1
                omega
          · intro held member
            rw [none_] at member
            cases member
      | free pv =>
          rw [HeapUse.Permits, none_] at permitted
          have null : pv = 0 := permitted.resolve_right (by simp)
          subst null
          refine ⟨_, rfl, Or.inl ⟨zero, ?_, first⟩, ?_⟩
          · rw [none_]
            rfl
          · intro held member
            rw [none_] at member
            cases member
      | store pv length memory =>
          rw [HeapUse.Permits, none_] at permitted
          cases permitted
  | inr served =>
      obtain ⟨blocks, serves⟩ := served
      cases call with
      | malloc wanted =>
          obtain ⟨pv, heap, run, _, after, untouched⟩ :=
            malloc_call state blocks serves wanted permitted
          refine ⟨_, congrArg (Option.map _) run, after, ?_⟩
          intro held member _
          apply serves.keeps held member
          · dsimp only
            split
            · exact member
            · exact List.mem_cons_of_mem _ member
          · intro place isUsed _
            exact untouched place isUsed
      | free pv =>
          by_cases null : pv = 0
          · subst null
            have all : state.live.filter (fun held => held.1 ≠ 0) =
                state.live := by
              rw [List.filter_eq_self]
              intro held member
              obtain ⟨place, _, at_, _⟩ := serves.place_of_held held member
              rw [decide_eq_true_eq]
              omega
            refine ⟨_, rfl, Or.inr ⟨blocks, ?_⟩, ?_⟩
            · rw [all]
              exact serves
            · intro held member _
              rw [all]
              exact ⟨member, fun node _ _ => rfl⟩
          · obtain ⟨heap, after, run, serves', untouched⟩ :=
              serves.free_some pv (permitted.resolve_left null)
            refine ⟨_, congrArg (Option.map _) run, Or.inr ⟨after, serves'⟩, ?_⟩
            intro held member other
            have differ : held.1 ≠ pv := fun same => other same.symm
            apply serves.keeps held member
            · simpa using And.intro member differ
            · intro place isUsed at_
              exact untouched place isUsed (by omega)
      | store pv length memory =>
          obtain ⟨serves', untouched⟩ :=
            serves.store_serves pv length memory permitted
          refine ⟨_, rfl, Or.inr ⟨blocks, serves'⟩, ?_⟩
          intro held member other
          have differ : held.1 ≠ pv := fun same => other same.symm
          apply serves.keeps held member
          · exact member
          · intro place isUsed at_
            exact untouched place isUsed (by omega)

/-! ### Every run -/

theorem reached_sound (memory : Nat → BlockLink) (state : HeapUse)
    (reached : Reached layout memory state) : Sound layout state := by
  induction reached with
  | start => exact Or.inl ⟨rfl, rfl, rfl⟩
  | call state after call _ permitted returns ih =>
      obtain ⟨after', run, sound, _⟩ := call_spec state call ih permitted
      rw [returns] at run
      rw [Option.some.inj run]
      exact sound

/-- A heap of a few blocks, and its state after one of them was taken. -/
def shortLayout : HeapLayout where
  psramEnd := 64
  idcacheEnd := 192
  xStart := 0
  room := by decide
  low := by decide
  positive := by decide
  outside := by decide

def emptyMemory : Nat → BlockLink := fun _ => ⟨0, 0⟩

def oneHeld : HeapUse :=
  (heapCall shortLayout ⟨psramHeapReset emptyMemory, [], none⟩
    (.malloc 8)).get (by decide)

theorem oneHeld_reached : Reached shortLayout emptyMemory oneHeld :=
  .call _ oneHeld (.malloc 8) .start
    (by
      unfold HeapUse.Permits
      decide)
    (Option.some_get _).symm

theorem oneHeld_live : oneHeld.live = [(80, 8)] := rfl

section Runs

variable (memory : Nat → BlockLink) (state : HeapUse)
  (reached : Reached layout memory state)

include reached in
/-- After any run, whatever was stored in the blocks, the next call returns: no
assertion fails and no loop over the list goes on for ever. -/
theorem heap_calls_return (call : HeapCall)
    (permitted : state.Permits call) :
    ∃ after, heapCall layout state call = some after := by
  obtain ⟨after, run, _⟩ :=
    call_spec state call (reached_sound memory state reached) permitted
  exact ⟨after, run⟩

theorem heap_calls_return_oneHeld :
    ∃ after, heapCall shortLayout oneHeld (.free 80) = some after :=
  heap_calls_return emptyMemory oneHeld oneHeld_reached (.free 80)
    (Or.inr (by simp [oneHeld_live]))

include reached in
/-- What a holder stored is there until it stores something else or gives the
block back. -/
theorem held_block_kept (call : HeapCall) (after : HeapUse)
    (permitted : state.Permits call)
    (returns : heapCall layout state call = some after) (held : Nat × Nat)
    (member : held ∈ state.live) (other : ¬call.Concerns held.1) :
    held ∈ after.live ∧ ∀ node, held.1 ≤ node →
      node + sizeofBlockLink ≤ held.1 + held.2 →
        after.heap.links node = state.heap.links node := by
  obtain ⟨after', run, _, keeps⟩ :=
    call_spec state call (reached_sound memory state reached) permitted
  rw [returns] at run
  rw [Option.some.inj run]
  exact keeps held member other

theorem held_block_kept_oneHeld :
    ∃ after, heapCall shortLayout oneHeld (.malloc 1) = some after ∧
      (80, 8) ∈ after.live ∧ after.heap.links 80 = oneHeld.heap.links 80 := by
  obtain ⟨after, returns⟩ : ∃ after,
      heapCall shortLayout oneHeld (.malloc 1) = some after :=
    ⟨_, (Option.some_get (by decide)).symm⟩
  have kept := held_block_kept emptyMemory oneHeld oneHeld_reached (.malloc 1)
    after (by
      unfold HeapUse.Permits
      decide) returns (80, 8) (by simp [oneHeld_live])
    (by simp [HeapCall.Concerns])
  exact ⟨after, returns, kept.1, kept.2 80 (Nat.le_refl _) (Nat.le_refl _)⟩

/-- The size in the header of a block that is held. -/
def heldSize (heap : PsramHeap) (pv : Nat) : Nat :=
  (heap.links (pv - heapStructSize)).xBlockSize - 2 ^ 31

theorem Serves.heldSize_eq {blocks : List Block}
    (serves : Serves layout state blocks) (held : Nat × Nat)
    (place : Nat × Nat)
    (isUsed : place ∈ places true (alignedHeap layout) blocks)
    (at_ : held.1 = place.1 + 16) :
    heldSize state.heap held.1 = place.2 := by
  have header : (state.heap.links place.1).xBlockSize = place.2 + 2 ^ 31 :=
    (serves.holds.headers place isUsed).2
  unfold heldSize
  rw [heapStructSize_eq, at_, Nat.add_sub_cancel, header, Nat.add_sub_cancel]

include reached in
/-- The blocks held are aligned, in the heap and apart, each with its header, as
large as asked for and not wasteful. -/
theorem held_blocks_apart :
    (∀ held ∈ state.live, held.1 % portByteAlignment = 0 ∧
      alignedHeap layout ≤ held.1 - heapStructSize ∧
      held.1 - heapStructSize + heldSize state.heap held.1 ≤ heapEnd layout ∧
      roundUp held.2 ≤ heldSize state.heap held.1 ∧
      heldSize state.heap held.1 ≤ roundUp held.2 + heapMinimumBlockSize) ∧
    state.live.Pairwise fun first second =>
      first.1 - heapStructSize + heldSize state.heap first.1 ≤
          second.1 - heapStructSize ∨
        second.1 - heapStructSize + heldSize state.heap second.1 ≤
          first.1 - heapStructSize := by
  cases reached_sound memory state reached with
  | inl fresh => simp [fresh.2.1]
  | inr served =>
      obtain ⟨blocks, serves⟩ := served
      rw [heapStructSize_eq, heapMinimumBlockSize_eq, portByteAlignment]
      constructor
      · intro held member
        obtain ⟨place, isUsed, at_, _, fits, slack⟩ :=
          serves.place_of_held held member
        have bounds := serves.holds.place_bounds isUsed
        rw [serves.heldSize_eq state held place isUsed at_]
        omega
      · have distinct : (state.live.map Prod.fst).Nodup := by
          rw [serves.pointers.nodup_iff, ← Function.comp_def (· + 16) Prod.fst,
            ← List.map_map]
          apply List.Nodup.map (add_left_injective 16)
          exact (places_sorted _ _ _ serves.holds.filled).imp
            fun lower => by omega
        apply (List.pairwise_map.mp distinct).imp_of_mem
        intro first second isFirst isSecond differ
        obtain ⟨place, isUsed, at_, _⟩ := serves.place_of_held first isFirst
        obtain ⟨place', isUsed', at_', _⟩ :=
          serves.place_of_held second isSecond
        rw [serves.heldSize_eq state first place isUsed at_,
          serves.heldSize_eq state second place' isUsed' at_']
        have apart := used_apart_used (by omega) isUsed isUsed'
        omega

theorem held_blocks_apart_oneHeld :
    (80, 8) ∈ oneHeld.live ∧ 80 % portByteAlignment = 0 ∧
      roundUp 8 ≤ heldSize oneHeld.heap 80 := by
  have member : (80, 8) ∈ oneHeld.live := by simp [oneHeld_live]
  have held := (held_blocks_apart emptyMemory oneHeld oneHeld_reached).1 _ member
  exact ⟨member, held.1, held.2.2.2.1⟩

/-- Somewhere in the heap there is a range for the size asked for, with a
header, that is apart from every block held. -/
def Room (layout : HeapLayout) (state : HeapUse) (xWantedSize : Nat) : Prop :=
  ∃ start, alignedHeap layout ≤ start ∧
    start + roundUp xWantedSize ≤ heapEnd layout ∧
    ∀ held ∈ state.live,
      start + roundUp xWantedSize ≤ held.1 - heapStructSize ∨
        held.1 - heapStructSize + heldSize state.heap held.1 ≤ start

theorem Serves.noRoom_iff {blocks : List Block}
    (serves : Serves layout state blocks) (wanted : Nat) :
    NoRoom layout blocks wanted ↔
      wanted = 0 ∨ 2 ^ 31 ≤ wanted ∨ ¬Room layout state wanted := by
  have holds := serves.holds
  have room_iff : Room layout state wanted ↔
      ∃ place ∈ places false (alignedHeap layout) blocks,
        roundUp wanted ≤ place.2 := by
    constructor
    · intro room
      obtain ⟨start, from_, to_, apart⟩ := room
      rw [← holds.fills] at to_
      obtain ⟨place, isFree, inside⟩ := exists_free_of_gap
        (alignedHeap layout) blocks holds.settled start (roundUp wanted)
        (by
          unfold roundUp
          omega) from_ to_ (by
          intro place isUsed
          have pointer := serves.pointers.symm.subset
            (List.mem_map_of_mem (f := fun place => place.1 + 16) isUsed)
          obtain ⟨held, member, at_⟩ := List.mem_map.mp pointer
          have own := apart held member
          rw [serves.heldSize_eq state held place isUsed at_,
            heapStructSize_eq] at own
          omega)
      exact ⟨place, isFree, by omega⟩
    · intro some_
      obtain ⟨place, isFree, fits⟩ := some_
      have bounds := holds.place_bounds isFree
      refine ⟨place.1, bounds.1, by omega, ?_⟩
      intro held member
      obtain ⟨used, isUsed, at_, _⟩ := serves.place_of_held held member
      rw [serves.heldSize_eq state held used isUsed at_, heapStructSize_eq]
      cases used_apart_free isUsed isFree with
      | inl before => omega
      | inr behind => omega
  unfold NoRoom
  rw [room_iff]
  simp only [not_exists, not_and, Nat.not_le]

include reached in
/-- A call gives `NULL` only for sizes that no block has, or where there is no
room at all. -/
theorem malloc_null_iff (xWantedSize : Nat) (word : xWantedSize < 2 ^ 32)
    (pv : Nat) (heap : PsramHeap)
    (returns : psramMalloc layout state.heap xWantedSize = some (pv, heap)) :
    pv = 0 ↔ xWantedSize = 0 ∨ 2 ^ 31 ≤ xWantedSize ∨
      ¬Room layout state xWantedSize := by
  cases reached_sound memory state reached with
  | inl fresh =>
      have serves := init_serves layout state.heap
      obtain ⟨pv', heap', run, null, _⟩ :=
        malloc_call _ _ serves xWantedSize word
      rw [← malloc_first state.heap fresh.1, returns] at run
      rw [(Prod.mk.inj (Option.some.inj run)).1, null,
        serves.noRoom_iff _ xWantedSize]
      unfold Room
      rw [fresh.2.1]
      simp
  | inr served =>
      obtain ⟨blocks, serves⟩ := served
      obtain ⟨pv', heap', run, null, _⟩ :=
        malloc_call state blocks serves xWantedSize word
      rw [returns] at run
      rw [(Prod.mk.inj (Option.some.inj run)).1, null,
        serves.noRoom_iff state xWantedSize]

theorem malloc_null_iff_oneHeld :
    ¬Room shortLayout oneHeld 128 := by
  have returns : psramMalloc shortLayout oneHeld.heap 128 =
      some (0, oneHeld.heap) := rfl
  have null := (malloc_null_iff emptyMemory oneHeld oneHeld_reached 128
    (by decide) 0 oneHeld.heap returns).mp rfl
  exact (null.resolve_left (by decide)).resolve_left (by decide)

include reached in
/-- The counts are those of the blocks held, the least count is the least there
was, and once nothing is held the heap is one block again. -/
theorem heap_accounts (least : Nat) (some_ : state.least = some least) :
    state.heap.xMinimumEverFreeBytesRemaining = least ∧
    state.heap.xFreeBytesRemaining +
        (state.live.map fun held => heldSize state.heap held.1).sum =
      heapEnd layout - alignedHeap layout ∧
    (state.live = [] →
      (state.heap.links layout.xStart).pxNextFreeBlock = alignedHeap layout ∧
      state.heap.links (alignedHeap layout) =
        ⟨heapEnd layout, heapEnd layout - alignedHeap layout⟩) := by
  cases reached_sound memory state reached with
  | inl fresh =>
      rw [fresh.2.2] at some_
      cases some_
  | inr served =>
      obtain ⟨blocks, serves⟩ := served
      have holds := serves.holds
      have room := (heapBounds layout).room
      have fills := holds.fills
      constructor
      · exact (Option.some.inj (some_.symm.trans serves.least)).symm
      constructor
      · have sizes : (state.live.map fun held =>
            heldSize state.heap held.1).sum =
              ((places true (alignedHeap layout) blocks).map Prod.snd).sum := by
          have perm := serves.pointers.map (heldSize state.heap)
          rw [List.map_map, List.map_map] at perm
          refine perm.sum_eq.trans (congrArg List.sum ?_)
          apply List.map_congr_left
          intro place isUsed
          rw [Function.comp_apply]
          exact serves.heldSize_eq state (place.1 + 16, 0) place isUsed rfl
        have sum := used_add_freeTotal (alignedHeap layout) blocks
        rw [holds.free, sizes]
        omega
      · intro none_
        have pointers := serves.pointers
        rw [none_, List.map_nil, List.nil_perm, List.map_eq_nil_iff] at pointers
        cases single_of_unused _ blocks holds.settled pointers with
        | inl empty =>
            rw [empty, total_nil] at fills
            omega
        | inr single =>
            obtain ⟨size, same⟩ := single
            have linked := holds.linked
            rw [same, total_cons, total_nil] at fills
            rw [same, places_cons_same, places_nil] at linked
            dsimp only at fills
            have whole : size = heapEnd layout - alignedHeap layout := by omega
            have next : state.heap.next (alignedHeap layout) =
                heapEnd layout := linked.2.2
            have own : state.heap.size (alignedHeap layout) = size :=
              linked.2.1
            constructor
            · exact linked.1
            · rw [← whole, PsramHeap.link_eq, next, own]

theorem heap_accounts_oneHeld :
    oneHeld.heap.xMinimumEverFreeBytesRemaining = 80 ∧
      oneHeld.heap.xFreeBytesRemaining + heldSize oneHeld.heap 80 = 112 := by
  have accounts := heap_accounts emptyMemory oneHeld oneHeld_reached 80 rfl
  rw [oneHeld_live] at accounts
  exact ⟨accounts.1, accounts.2.1⟩

end Runs

end XR872.Psram
