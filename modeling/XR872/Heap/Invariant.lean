/-
What the heap trace promises, and for which calls it keeps its promise.

A guard word has its room when four bytes more were requested, without the sum
going round; a block keeps its entry until it is freed.
-/

import XR872.Heap.Live

namespace XR872.Heap

open Slots
open Runs

namespace HeapTrace

/-- The table names the blocks there are with their sizes, the counts are those
of the table, a failed `realloc` changes none of these, a block without an
entry was created when the table was full, and guard words are inside of what
was requested. -/
structure WellTraced (t : HeapTrace) : Prop where
  named : ∀ i < heapMemMaxCnt, (t.mem i).ptr ≠ 0 →
    ∃ block ∈ t.blocks, block.ptr = (t.mem i).ptr ∧
      block.size = (t.mem i).size
  distinct : ∀ i < heapMemMaxCnt, ∀ j < heapMemMaxCnt, (t.mem i).ptr ≠ 0 →
    (t.mem i).ptr = (t.mem j).ptr → i = j
  entryCnt : t.entryCnt = total taken heapMemMaxCnt t.mem
  sum : t.sum.toNat = total weight heapMemMaxCnt t.mem
  noneBelow : ∀ index < t.emptyIdx, (t.mem index).ptr ≠ 0
  failing : ∀ ptr size nested, size ≠ 0 →
    let next := heapStep t (.realloc ptr size nested 0)
    next.mem = t.mem ∧ next.entryCnt = t.entryCnt ∧ next.sum = t.sum ∧
      next.emptyIdx = t.emptyIdx
  untraced : ∀ block ∈ t.blocks,
    (∀ i < heapMemMaxCnt, (t.mem i).ptr ≠ block.ptr) → block.bornFull = true
  guards : ∀ guard ∈ t.guards, guard.offset + 4 ≤ guard.requested

/-- There is room for the guard word of what the real allocator gives, and a
block that `realloc` with size zero leaves has no entry. -/
def Clean (t : HeapTrace) (call : HeapCall) : Prop :=
  call.Valid t →
    match call with
    | .malloc size answer => answer ≠ 0 → size.toNat + 4 < 2 ^ 32
    | .realloc ptr size _ answer => answer ≠ 0 →
        (size ≠ 0 ∧ size.toNat + 4 < 2 ^ 32) ∨
          (size = 0 ∧ ptr ≠ 0 ∧ ∀ i < heapMemMaxCnt, (t.mem i).ptr ≠ ptr)
    | .free _ => True

/-! ### The sum -/

theorem Kept.weight_lt {t : HeapTrace} (kept : t.Kept) :
    total weight heapMemMaxCnt t.mem < 2 ^ 32 := by
  let members := (Finset.range heapMemMaxCnt).filter
    fun i => (t.mem i).ptr ≠ 0
  have isMember : ∀ i ∈ members, i < heapMemMaxCnt ∧ (t.mem i).ptr ≠ 0 := by
    intro i member
    obtain ⟨within, occupied⟩ := Finset.mem_filter.mp member
    exact ⟨Finset.mem_range.mp within, occupied⟩
  have sum_eq : total weight heapMemMaxCnt t.mem =
      ∑ i ∈ members, (t.mem i).size.toNat := by
    unfold total
    rw [Finset.sum_filter]
    apply Finset.sum_congr rfl
    intro i _
    by_cases isFree : (t.mem i).ptr = 0
    · rw [(taken_free isFree).2, if_neg (not_not.mpr isFree)]
    · rw [(taken_occupied isFree).2, if_pos isFree]
  have room := Slots.sum_le_of_apart members (fun i => (t.mem i).ptr.toNat)
    (fun i => t.requested (t.mem i).ptr) (2 ^ 32)
    (by
      intro i member
      obtain ⟨within, occupied⟩ := isMember i member
      obtain ⟨block, isBlock, same, _⟩ := kept.named.named i within occupied
      have placed := (kept.disjoint.placed block isBlock).2
      rw [same] at placed
      exact placed)
    (by
      intro i left j right differ
      obtain ⟨within, occupied⟩ := isMember i left
      obtain ⟨below, isOccupied⟩ := isMember j right
      obtain ⟨block, isBlock, same, _⟩ := kept.named.named i within occupied
      obtain ⟨other, isOther, alike, _⟩ := kept.named.named j below isOccupied
      have apart := kept.disjoint.apart block isBlock other isOther
      rw [same, alike] at apart
      apply apart
      intro equal
      exact differ (kept.named.distinct i within j below occupied equal))
  rw [sum_eq]
  by_cases none : members = ∅
  · rw [none, Finset.sum_empty]
    decide
  · refine Nat.lt_of_lt_of_le ?_ room
    apply Finset.sum_lt_sum_of_nonempty (Finset.nonempty_iff_ne_empty.mpr none)
    intro i member
    obtain ⟨within, occupied⟩ := isMember i member
    have fits := kept.named.room i within occupied
    omega

theorem Kept.sum_eq {t : HeapTrace} (kept : t.Kept) :
    t.sum.toNat = total weight heapMemMaxCnt t.mem := by
  have sum : t.sum = BitVec.ofNat 32 (total weight heapMemMaxCnt t.mem) :=
    kept.counts.sum
  rw [sum, BitVec.toNat_ofNat, Nat.mod_eq_of_lt kept.weight_lt]

/-! ### Calls within `realloc` -/

theorem nestedCall_same (t : HeapTrace) (reallocing : t.doReallocing = true)
    (call : NestedCall) : t.nestedCall call = t := by
  cases call with
  | malloc size answer =>
      change t.wrapMallocR size answer = t
      unfold wrapMallocR
      dsimp only
      have nothing : ∀ realSize, t.realMallocR size realSize answer = t :=
        fun realSize => if_pos (.inl reallocing)
      rw [nothing, reallocing]
      rfl
  | free ptr =>
      change t.wrapFreeR ptr = t
      unfold wrapFreeR
      rw [reallocing]
      change t.realFreeR ptr = t
      exact if_pos reallocing

theorem nestedCalls_same (t : HeapTrace) (reallocing : t.doReallocing = true)
    (nested : List NestedCall) : nested.foldl nestedCall t = t := by
  induction nested with
  | nil => rfl
  | cons call rest ih =>
      rw [List.foldl_cons, t.nestedCall_same reallocing, ih]

/-- What `__wrap__realloc_r` does around the real one. -/
def afterRealloc (t : HeapTrace) (ptr : Ptr) (size : BitVec 32) (answer : Ptr) :
    HeapTrace :=
  if ptr = 0 then
    if answer ≠ 0 then t.addEntry answer size else t
  else if size = 0 then (t.deleteEntry ptr).2
  else if answer ≠ 0 then (t.updateEntry ptr answer size).2
  else t

theorem wrapReallocR_eq (t : HeapTrace) (ptr : Ptr) (size : BitVec 32)
    (nested : List NestedCall) (answer : Ptr) :
    t.wrapReallocR ptr size nested answer =
      { ({ t with doReallocing := true }.realReallocR ptr size
          (reallocSize size) answer).afterRealloc ptr size answer with
        doReallocing := false } := by
  unfold wrapReallocR
  dsimp only
  rw [nestedCalls_same _ rfl]
  rfl

theorem realloc_failing (t : HeapTrace) (ptr : Ptr) (size : BitVec 32)
    (nested : List NestedCall) (notZero : size ≠ 0) :
    t.wrapReallocR ptr size nested 0 = { t with doReallocing := false } := by
  rw [wrapReallocR_eq]
  have nothing : { t with doReallocing := true }.realReallocR ptr size
      (reallocSize size) 0 = { t with doReallocing := true } := by
    unfold realReallocR
    rw [if_pos rfl, if_neg fun both => notZero both.2]
  rw [nothing]
  unfold afterRealloc
  by_cases null : ptr = 0
  · rw [if_pos null, if_neg fun some => some rfl]
  · rw [if_neg null, if_neg notZero, if_neg fun some => some rfl]

theorem failing (t : HeapTrace) (ptr : Ptr) (size : BitVec 32)
    (nested : List NestedCall) (notZero : size ≠ 0) :
    let next := heapStep t (.realloc ptr size nested 0)
    next.mem = t.mem ∧ next.entryCnt = t.entryCnt ∧ next.sum = t.sum ∧
      next.emptyIdx = t.emptyIdx := by
  unfold heapStep
  dsimp only
  by_cases valid : (HeapCall.realloc ptr size nested 0).Valid t
  · rw [if_pos valid, realloc_failing t ptr size nested notZero]
    exact ⟨rfl, rfl, rfl, rfl⟩
  · rw [if_neg valid]
    exact ⟨rfl, rfl, rfl, rfl⟩

theorem Kept.wellTraced {t : HeapTrace} (kept : t.Kept) : t.WellTraced where
  named := kept.named.named
  distinct := kept.named.distinct
  entryCnt := kept.counts.entryCnt
  sum := kept.sum_eq
  noneBelow := kept.counts.noneBelow
  failing := t.failing
  untraced block isBlock := (kept.named.untraced block isBlock).mpr
  guards := kept.guards

theorem Kept.reallocing {t : HeapTrace} (kept : t.Kept) (flag : Bool) :
    { t with doReallocing := flag }.Kept where
  counts := kept.counts
  disjoint := kept.disjoint
  named := ⟨kept.named.named, kept.named.distinct, kept.named.untraced,
    kept.named.room⟩
  guards := kept.guards

theorem deleteEntry_freeBlock (t : HeapTrace) (ptr : Ptr) :
    ((t.freeBlock ptr).deleteEntry ptr).2 =
      (t.deleteEntry ptr).2.freeBlock ptr := by
  have same : (t.freeBlock ptr).mem = t.mem := rfl
  unfold deleteEntry
  rw [same]
  cases search (fun entry => entry.ptr = ptr) t.mem heapMemMaxCnt 0 with
  | none => rfl
  | some i => rfl

theorem WellTraced.of_reallocing {t : HeapTrace} {flag : Bool}
    (framed : { t with doReallocing := flag }.WellTraced) : t.WellTraced where
  named := framed.named
  distinct := framed.distinct
  entryCnt := framed.entryCnt
  sum := framed.sum
  noneBelow := framed.noneBelow
  failing := t.failing
  untraced := framed.untraced
  guards := framed.guards

/-! ### One call -/

theorem room_iff (size : BitVec 32) :
    size.toNat + 4 ≤ (size + wrapMemMagicLen).toNat ↔
      size.toNat + 4 < 2 ^ 32 := by
  have bound := size.isLt
  unfold wrapMemMagicLen
  rw [BitVec.toNat_add]
  change _ ≤ (size.toNat + 4) % 2 ^ 32 ↔ _
  omega

theorem Admits.fresh {t : HeapTrace} {old answer : Ptr} {realSize : BitVec 32}
    (admits : t.Admits old answer realSize) :
    Fresh t.blocks t.requested old answer realSize.toNat :=
  ⟨admits.1, admits.2.1, admits.2.2⟩

namespace Kept

variable {t : HeapTrace}

/-- A new block is traced well exactly if there is room for its guard word. -/
theorem create (kept : t.Kept) {answer : Ptr} (size realSize : BitVec 32)
    (admits : t.Admits 0 answer realSize) :
    let next := (t.newBlock answer size realSize).addEntry answer size
    next.doReallocing = t.doReallocing ∧
      (size.toNat + 4 ≤ realSize.toNat → next.Kept) ∧
      (¬ size.toNat + 4 ≤ realSize.toNat →
        ∃ guard ∈ next.guards, ¬ guard.offset + 4 ≤ guard.requested) := by
  intro next
  obtain ⟨tableOnly, guards, counts, entry⟩ :=
    (t.newBlock answer size realSize).addEntry_cases kept.counts admits.1 size
  have guards : next.guards =
      { offset := size.toNat, requested := realSize.toNat } :: t.guards := by
    refine guards.trans ?_
    unfold guardAt newBlock
    dsimp only
    rw [Function.update_self]
  refine ⟨tableOnly.doReallocing, ?_, ?_⟩
  · intro fits
    exact kept.created admits.fresh fits tableOnly.blocks tableOnly.requested
      counts guards entry
  · intro tight
    refine ⟨{ offset := size.toNat, requested := realSize.toNat }, ?_, tight⟩
    rw [guards]
    exact List.mem_cons_self

theorem destroy (kept : t.Kept) {ptr : Ptr} (notNull : ptr ≠ 0) :
    ((t.deleteEntry ptr).2.freeBlock ptr).Kept := by
  obtain ⟨tableOnly, counts, entry⟩ := t.deleteEntry_cases kept.counts notNull
  apply kept.destroyed
  · exact congrArg (List.filter _) tableOnly.blocks
  · exact tableOnly.requested
  · exact counts
  · rcases entry with missed | ⟨i, within, here, written⟩
    · exact .inl missed
    · refine .inr ⟨i, within, here, ?_, written⟩
      rw [here]
      exact notNull

/-- A block that has got another size is traced well exactly if there is room
for its guard word. -/
theorem move (kept : t.Kept) {ptr answer : Ptr} (size realSize : BitVec 32)
    (live : t.Live ptr) (admits : t.Admits ptr answer realSize) :
    let next := ((t.moveBlock ptr answer size realSize).updateEntry ptr answer
      size).2
    next.doReallocing = t.doReallocing ∧
      (size.toNat + 4 ≤ realSize.toNat → next.Kept) ∧
      (¬ size.toNat + 4 ≤ realSize.toNat →
        ∃ guard ∈ next.guards, ¬ guard.offset + 4 ≤ guard.requested) := by
  intro next
  have notNull : ptr ≠ 0 := by
    obtain ⟨block, isBlock, rfl⟩ := live
    exact (kept.disjoint.placed block isBlock).1
  obtain ⟨tableOnly, guards, counts, entry⟩ :=
    (t.moveBlock ptr answer size realSize).updateEntry_cases kept.counts
      notNull admits.1 size
  have guards : next.guards =
      { offset := size.toNat, requested := realSize.toNat } :: t.guards := by
    refine guards.trans ?_
    unfold guardAt moveBlock
    dsimp only
    rw [Function.update_self]
  refine ⟨tableOnly.doReallocing, ?_, ?_⟩
  · intro fits
    apply kept.moved admits.fresh tableOnly.blocks tableOnly.requested counts
      _ live
    · rcases entry with ⟨missed, mem⟩ | ⟨i, within, here, mem⟩
      · exact .inl ⟨missed, mem⟩
      · refine .inr ⟨fits, i, within, here, ?_, mem⟩
        change (t.mem i).ptr = ptr at here
        rw [here]
        exact notNull
    · rw [guards]
      intro guard isGuard
      rcases List.mem_cons.mp isGuard with rfl | isGuard
      · exact fits
      · exact kept.guards guard isGuard
  · intro tight
    refine ⟨{ offset := size.toNat, requested := realSize.toNat }, ?_, tight⟩
    rw [guards]
    exact List.mem_cons_self

/-- A block that is left with nothing is traced well exactly if it had no
entry. -/
theorem shrink (kept : t.Kept) {ptr answer : Ptr} (live : t.Live ptr)
    (admits : t.Admits ptr answer 0) :
    let next := ((t.moveBlock ptr answer 0 0).deleteEntry ptr).2
    next.doReallocing = t.doReallocing ∧
      ((∀ i < heapMemMaxCnt, (t.mem i).ptr ≠ ptr) → next.Kept) ∧
      (¬ (∀ i < heapMemMaxCnt, (t.mem i).ptr ≠ ptr) → ¬ next.WellTraced) := by
  intro next
  obtain ⟨moving, isMoving, at_⟩ := live
  have notNull : ptr ≠ 0 := at_ ▸ (kept.disjoint.placed moving isMoving).1
  obtain ⟨tableOnly, counts, entry⟩ :=
    (t.moveBlock ptr answer 0 0).deleteEntry_cases kept.counts notNull
  refine ⟨tableOnly.doReallocing, ?_, ?_⟩
  · intro missed
    rcases entry with ⟨_, mem, guards⟩ | ⟨i, within, here, _⟩
    · apply kept.moved admits.fresh tableOnly.blocks tableOnly.requested counts
        _ ⟨moving, isMoving, at_⟩ (.inl ⟨missed, mem⟩)
      intro guard isGuard
      change guard ∈ ((t.moveBlock ptr answer 0 0).deleteEntry ptr).2.guards
        at isGuard
      rw [guards] at isGuard
      exact kept.guards guard isGuard
    · exact absurd here (missed i within)
  · intro traced framed
    rcases entry with ⟨missed, _⟩ | ⟨i, within, here, mem, _⟩
    · exact traced missed
    · change (t.mem i).ptr = ptr at here
      have mem : next.mem =
          Function.update t.mem i { ptr := 0, size := 0 } := mem
      have isLeft : { moving with ptr := answer, size := 0 } ∈ next.blocks := by
        rw [tableOnly.blocks]
        exact List.mem_map.mpr ⟨moving, isMoving, if_pos at_⟩
      have without := framed.untraced _ isLeft (by
        intro j below
        rw [mem]
        by_cases same : j = i
        · rw [same, Function.update_self]
          exact admits.1.symm
        · rw [Function.update_of_ne same]
          by_cases occupied : (t.mem j).ptr = 0
          · rw [occupied]
            exact admits.1.symm
          · apply kept.not_traced admits.fresh j below _ occupied
            intro alike
            exact same (kept.named.distinct j below i within occupied
              (alike.trans here.symm)))
      exact (kept.named.untraced moving isMoving).mp without i within
        (here.trans at_.symm)

end Kept

/-- What holds between calls. -/
structure Sound (t : HeapTrace) : Prop where
  kept : t.Kept
  idle : t.doReallocing = false

theorem not_wellTraced {t : HeapTrace}
    (outside : ∃ guard ∈ t.guards, ¬ guard.offset + 4 ≤ guard.requested) :
    ¬ t.WellTraced := by
  obtain ⟨guard, isGuard, beyond⟩ := outside
  exact fun framed => beyond (framed.guards guard isGuard)

namespace Sound

variable {t : HeapTrace}

theorem malloc (sound : t.Sound) (size : BitVec 32) (answer : Ptr)
    (valid : (HeapCall.malloc size answer).Valid t) :
    ((answer ≠ 0 → size.toNat + 4 < 2 ^ 32) →
        (t.wrapMallocR size answer).Sound) ∧
      (¬ (answer ≠ 0 → size.toNat + 4 < 2 ^ 32) →
        ¬ (t.wrapMallocR size answer).WellTraced) := by
  have idle := sound.idle
  by_cases null : answer = 0
  · have same : t.wrapMallocR size answer = t := by
      unfold wrapMallocR
      dsimp only
      have nothing : ∀ realSize, t.realMallocR size realSize answer = t :=
        fun realSize => if_pos (.inr null)
      rw [nothing, idle]
      exact (if_pos rfl).trans (if_neg fun some => some null)
    rw [same]
    exact ⟨fun _ => sound, fun not => absurd (fun some => absurd null some) not⟩
  · have same : t.wrapMallocR size answer =
        (t.newBlock answer size (size + wrapMemMagicLen)).addEntry answer
          size := by
      have real : t.realMallocR size (size + wrapMemMagicLen) answer =
          t.newBlock answer size (size + wrapMemMagicLen) := by
        apply if_neg
        rw [idle]
        exact fun either => either.elim Bool.false_ne_true null
      have asked : (if !t.doReallocing then size + wrapMemMagicLen else size) =
          size + wrapMemMagicLen := by
        rw [idle]
        rfl
      have still : (t.newBlock answer size
        (size + wrapMemMagicLen)).doReallocing = false := idle
      unfold wrapMallocR
      dsimp only
      rw [asked, real, still]
      exact (if_pos rfl).trans (if_pos null)
    obtain ⟨flag, fits, tight⟩ := sound.kept.create size
      (size + wrapMemMagicLen) (valid.resolve_left null)
    rw [room_iff] at fits tight
    rw [same]
    constructor
    · intro room
      exact ⟨fits (room null), flag.trans idle⟩
    · intro noRoom
      apply not_wellTraced
      exact tight fun room => noRoom fun _ => room

theorem free (sound : t.Sound) (ptr : Ptr) :
    (t.wrapFreeR ptr).Sound := by
  have idle := sound.idle
  by_cases null : ptr = 0
  · have same : t.wrapFreeR ptr = t.freeBlock ptr := by
      unfold wrapFreeR
      rw [if_neg fun both => both.2 null]
      apply if_neg
      rw [idle]
      exact Bool.false_ne_true
    have blocks : (t.freeBlock ptr).blocks = t.blocks := by
      apply List.filter_eq_self.mpr
      intro block isBlock
      rw [null]
      exact decide_eq_true (sound.kept.disjoint.placed block isBlock).1
    have unchanged : t.freeBlock ptr = t := by
      change { t with blocks := (t.freeBlock ptr).blocks } = t
      rw [blocks]
    rw [same, unchanged]
    exact sound
  · have tableOnly := (t.deleteEntry_cases sound.kept.counts null).1
    have same : t.wrapFreeR ptr = ((t.deleteEntry ptr).2).freeBlock ptr := by
      unfold wrapFreeR
      rw [if_pos ⟨by rw [idle]; rfl, null⟩]
      apply if_neg
      rw [tableOnly.doReallocing, idle]
      exact Bool.false_ne_true
    rw [same]
    exact ⟨sound.kept.destroy null, tableOnly.doReallocing.trans idle⟩

theorem reallocSize_room (size : BitVec 32) :
    size.toNat + 4 ≤ (reallocSize size).toNat ↔
      size ≠ 0 ∧ size.toNat + 4 < 2 ^ 32 := by
  unfold reallocSize
  by_cases zero : size = 0
  · rw [if_neg (not_not.mpr zero), zero]
    decide
  · rw [if_pos zero, room_iff]
    exact (and_iff_right zero).symm

theorem realloc (sound : t.Sound) (ptr : Ptr) (size : BitVec 32)
    (nested : List NestedCall) (answer : Ptr)
    (valid : (HeapCall.realloc ptr size nested answer).Valid t) :
    ((answer ≠ 0 → (size ≠ 0 ∧ size.toNat + 4 < 2 ^ 32) ∨
          (size = 0 ∧ ptr ≠ 0 ∧ ∀ i < heapMemMaxCnt, (t.mem i).ptr ≠ ptr)) →
        (t.wrapReallocR ptr size nested answer).Sound) ∧
      (¬ (answer ≠ 0 → (size ≠ 0 ∧ size.toNat + 4 < 2 ^ 32) ∨
          (size = 0 ∧ ptr ≠ 0 ∧ ∀ i < heapMemMaxCnt, (t.mem i).ptr ≠ ptr)) →
        ¬ (t.wrapReallocR ptr size nested answer).WellTraced) := by
  have kept := sound.kept.reallocing true
  rw [wrapReallocR_eq]
  by_cases failed : answer = 0
  · refine ⟨fun _ => ?_, fun not => absurd (fun some => absurd failed some) not⟩
    rw [failed]
    by_cases frees : ptr ≠ 0 ∧ size = 0
    · have real : { t with doReallocing := true }.realReallocR ptr size
          (reallocSize size) 0 =
          { t with doReallocing := true }.freeBlock ptr :=
        (if_pos rfl).trans (if_pos frees)
      rw [real]
      unfold afterRealloc
      rw [if_neg frees.1, if_pos frees.2, deleteEntry_freeBlock]
      exact ⟨(kept.destroy frees.1).reallocing false, rfl⟩
    · have real : { t with doReallocing := true }.realReallocR ptr size
          (reallocSize size) 0 = { t with doReallocing := true } :=
        (if_pos rfl).trans (if_neg frees)
      rw [real]
      unfold afterRealloc
      by_cases null : ptr = 0
      · rw [if_pos null, if_neg fun some => some rfl]
        exact ⟨kept.reallocing false, rfl⟩
      · rw [if_neg null, if_neg fun zero => frees ⟨null, zero⟩,
          if_neg fun some => some rfl]
        exact ⟨kept.reallocing false, rfl⟩
  · have admits := valid.2.resolve_left failed
    by_cases null : ptr = 0
    · -- A new block.
      have real : { t with doReallocing := true }.realReallocR ptr size
          (reallocSize size) answer =
          { t with doReallocing := true }.newBlock answer size
            (reallocSize size) := (if_neg failed).trans (if_pos null)
      rw [real]
      unfold afterRealloc
      rw [if_pos null, if_pos failed]
      rw [null] at admits
      obtain ⟨_, fits, tight⟩ := kept.create size (reallocSize size) admits
      rw [reallocSize_room] at fits tight
      constructor
      · intro clean
        have room := (clean failed).resolve_right fun both => both.2.1 null
        exact ⟨(fits room).reallocing false, rfl⟩
      · intro dirty framed
        refine not_wellTraced (tight ?_) framed.of_reallocing
        exact fun room => dirty fun _ => .inl room
    · have live : t.Live ptr := valid.1.resolve_left null
      have real : { t with doReallocing := true }.realReallocR ptr size
          (reallocSize size) answer =
          { t with doReallocing := true }.moveBlock ptr answer size
            (reallocSize size) := (if_neg failed).trans (if_neg null)
      rw [real]
      unfold afterRealloc
      rw [if_neg null]
      by_cases zero : size = 0
      · -- A block that stays, with nothing requested.
        subst zero
        obtain ⟨_, missed, traced⟩ := kept.shrink live admits
        rw [if_pos rfl]
        constructor
        · intro clean
          have untraced := (clean failed).resolve_left fun both => both.1 rfl
          exact ⟨(missed untraced.2.2).reallocing false, rfl⟩
        · intro dirty framed
          refine traced ?_ framed.of_reallocing
          exact fun untraced => dirty fun _ => .inr ⟨rfl, null, untraced⟩
      · obtain ⟨_, fits, tight⟩ :=
          kept.move size (reallocSize size) live admits
        rw [reallocSize_room] at fits tight
        rw [if_neg zero, if_pos failed]
        constructor
        · intro clean
          have room := (clean failed).resolve_right fun both => zero both.1
          exact ⟨(fits room).reallocing false, rfl⟩
        · intro dirty framed
          refine not_wellTraced (tight ?_) framed.of_reallocing
          exact fun room => dirty fun _ => .inl room

/-- A call keeps what holds between calls, and what is promised, exactly if it
is clean. -/
theorem heapStep_cases (sound : t.Sound) (call : HeapCall) :
    (t.Clean call → (heapStep t call).Sound) ∧
      (¬ t.Clean call → ¬ (heapStep t call).WellTraced) := by
  unfold heapStep Clean
  by_cases valid : call.Valid t
  · rw [if_pos valid]
    cases call with
    | malloc size answer =>
        obtain ⟨clean, dirty⟩ := sound.malloc size answer valid
        exact ⟨fun isClean => clean (isClean valid),
          fun isDirty => dirty fun isClean => isDirty fun _ => isClean⟩
    | realloc ptr size nested answer =>
        obtain ⟨clean, dirty⟩ := sound.realloc ptr size nested answer valid
        exact ⟨fun isClean => clean (isClean valid),
          fun isDirty => dirty fun isClean => isDirty fun _ => isClean⟩
    | free ptr =>
        exact ⟨fun _ => sound.free ptr,
          fun isDirty => absurd (fun _ => trivial) isDirty⟩
  · rw [if_neg valid]
    exact ⟨fun _ => sound,
      fun isDirty => absurd (fun isValid => absurd isValid valid) isDirty⟩

end Sound

theorem sound_start : heapStart.Sound where
  kept :=
    { counts :=
        { entryCnt := by
            have nothing : total taken heapMemMaxCnt heapStart.mem = 0 :=
              Finset.sum_eq_zero fun _ _ => rfl
            rw [nothing]
            rfl
          sum := by
            have nothing : total weight heapMemMaxCnt heapStart.mem = 0 :=
              Finset.sum_eq_zero fun _ _ => rfl
            rw [nothing]
            rfl
          emptyIdx_le := Nat.zero_le _
          noneBelow := fun _ below => absurd below (Nat.not_lt_zero _) }
      disjoint :=
        { placed := by intro block isBlock; cases isBlock
          same := by intro block isBlock; cases isBlock
          apart := by intro block isBlock; cases isBlock }
      named :=
        { named := fun _ _ occupied => absurd rfl occupied
          distinct := fun _ _ _ _ occupied => absurd rfl occupied
          untraced := by intro block isBlock; cases isBlock
          room := fun _ _ occupied => absurd rfl occupied }
      guards := by intro guard isGuard; cases isGuard }
  idle := rfl

end HeapTrace

open HeapTrace in
/-- The promise is kept in every state of a run exactly if every call of it is
clean. -/
theorem wellTraced_along (calls : List HeapCall) :
    Always heapStep WellTraced heapStart calls ↔
      Along heapStep Clean heapStart calls := by
  apply always_iff_along WellTraced Clean Sound
  · exact fun t call sound _ clean => (sound.heapStep_cases call).1 clean
  · intro t call sound _
    obtain ⟨clean, dirty⟩ := sound.heapStep_cases call
    constructor
    · intro framed
      by_contra isDirty
      exact dirty isDirty framed
    · exact fun isClean => (clean isClean).kept.wellTraced
  · exact sound_start
  · exact sound_start.kept.wellTraced

/-- `realloc(NULL, 0)`, which a real one answers with a block: no byte was
requested for the guard word. -/
theorem realloc_null_zero :
    ¬ (heapStep heapStart (.realloc 0 0 [] 0x1000)).WellTraced := by
  intro framed
  have guard := framed.guards { offset := 0, requested := 0 } (by decide +kernel)
  exact absurd guard (by decide)

end XR872.Heap
