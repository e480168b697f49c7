/-
The copies follow the encoder.

Both are followed on the line the frame would lie on if the ring did not end:
the handler's place on it has the counter for its partition and the offset for
its remainder, and the encoder is in the same partition, or in the next one when
an interrupt is pending.
-/

import XR872.Jpeg.Partition

namespace XR872.Jpeg

open BitView
open Memories
open Runs

/-! ### Places on the line -/

theorem mod_ring (number size place : Nat) :
    place % (number * size) = place / size % number * size + place % size := by
  rw [Nat.mul_comm number, Nat.mod_mul, Nat.add_comm, Nat.mul_comm size]

theorem div_same (size place count : Nat)
    (within : place + count < (place / size + 1) * size) :
    (place + count) / size = place / size :=
  Nat.div_eq_of_lt_le ((Nat.div_mul_le_self place size).trans (by omega)) within

/-- In one partition, places on the line and in the ring advance together. -/
theorem mod_advance (number size place count : Nat)
    (within : place + count < (place / size + 1) * size) :
    (place + count) % (number * size) = place % (number * size) + count := by
  rw [mod_ring, mod_ring, div_same size place count within]
  have whole := Nat.div_add_mod place size
  have advanced := Nat.div_add_mod (place + count) size
  rw [div_same size place count within] at advanced
  omega

theorem partition_inside (number size place : Nat) (some_ : 0 < number) :
    (place / size % number + 1) * size ≤ number * size :=
  Nat.mul_le_mul_right size (Nat.mod_lt _ some_)

theorem mod_inside (number size place count : Nat) (some_ : 0 < number)
    (within : place + count < (place / size + 1) * size) :
    place % (number * size) + count < number * size := by
  have room := partition_inside number size place some_
  have whole := Nat.div_add_mod place size
  rw [mod_ring]
  have left := Nat.add_mul (place / size) 1 size
  have right := Nat.add_mul (place / size % number) 1 size
  rw [Nat.mul_comm size] at whole
  omega

theorem u32_sub (minuend subtrahend : Nat) (ordered : subtrahend ≤ minuend)
    (small : minuend < 2 ^ 32) :
    u32 ((minuend : Int) - subtrahend) = minuend - subtrahend := by
  unfold u32
  omega

theorem u32_small (value : Nat) (small : value < 2 ^ 32) :
    u32 (value : Int) = value := by
  unfold u32
  omega

/-! ### While a frame is encoded -/

def Capture.copied (capture : Capture) : Nat :=
  capture.encoder.start + capture.priv.memCurSize

def Capture.written (capture : Capture) : Nat :=
  capture.encoder.start + capture.encoder.written

/-- The end of the partition that the handler's place is in. -/
def Capture.boundary (capture : Capture) : Nat :=
  (capture.copied / capture.priv.memPartSize + 1) * capture.priv.memPartSize

structure Following (capture : Capture) : Prop where
  positive : 0 < capture.priv.memPartSize
  rounds : capture.encoder.frame.bits + 7 < 2 ^ 32
  complete : capture.encoder.written ≤ capture.encoder.frame.bytes.length
  behind : capture.priv.memCurSize ≤ capture.encoder.written
  counter : capture.priv.memPartCnt =
    capture.copied / capture.priv.memPartSize % capture.priv.memPartNum
  offset : capture.priv.memPartOffSet = capture.copied % capture.priv.ring
  inside : capture.encoder.partInt = false →
    capture.written < capture.boundary
  filled : capture.encoder.partInt = true →
    capture.boundary ≤ capture.written ∧
      capture.written < capture.boundary + capture.priv.memPartSize
  last : capture.encoder.finishInt = true →
    capture.encoder.written = capture.encoder.frame.bytes.length
  stream : ∀ index, index < capture.encoder.written →
    capture.encoder.written ≤ index + capture.priv.ring →
    capture.encoder.stream (capture.encoder.place capture.priv.ring index) =
      capture.encoder.frame.bytes.getD index 0
  buffer : load capture.priv.memPartDstBuf 0 capture.priv.memCurSize =
    capture.encoder.frame.bytes.take capture.priv.memCurSize

structure Resting (capture : Capture) : Prop where
  quiet : capture.encoder.partInt = false ∧ capture.encoder.finishInt = false
  fresh : capture.priv.memCurSize = 0
  ended : capture.encoder.ended % capture.priv.ring = capture.encoder.ended
  counter : capture.priv.memPartCnt =
    capture.encoder.ended / capture.priv.memPartSize
  offset : capture.priv.memPartOffSet = u32 (ALIGN_32B capture.encoder.ended)

structure Consistent (capture : Capture) : Prop where
  several : 2 ≤ capture.priv.memPartNum
  number : capture.priv.memPartNum ≤ 16
  ring : capture.priv.ring < 2 ^ 32
  resting : capture.encoder.encoding = false → Resting capture
  following : capture.encoder.encoding = true → Following capture

theorem partitions_bound :
    ∀ number : Fin 4, 2 ≤ 2 ^ (number.val + 1) ∧ 2 ^ (number.val + 1) ≤ 16 := by
  decide

theorem consistent_configured (cfg : JPEG_ConfigParam) (stream : Nat → Byte) :
    Consistent (Capture.configured cfg stream) where
  several := (partitions_bound cfg.memPartNum).1
  number := (partitions_bound cfg.memPartNum).2
  ring := (Nat.mul_div_le _ _).trans_lt cfg.outstreamMemSize.isLt
  resting _ :=
    { quiet := ⟨rfl, rfl⟩
      fresh := rfl
      ended := Nat.zero_mod _
      counter := (Nat.zero_div _).symm
      offset := by
        change 0 = u32 (ALIGN_32B 0 : Nat)
        rfl }
  following busy := nomatch busy

/-! ### The encoder's steps -/

theorem le_align (value : Nat) : value ≤ ALIGN_32B value := by
  unfold ALIGN_32B
  omega

theorem align_inside (number size ended : Nat) (several : 0 < number)
    (inside : ended % (number * size) = ended)
    (clean : ALIGN_32B ended < (ended / size + 1) * size) :
    ALIGN_32B ended / size = ended / size ∧
      ALIGN_32B ended < number * size := by
  have up := le_align ended
  have same := div_same size ended (ALIGN_32B ended - ended) (by omega)
  have room := mod_inside number size ended (ALIGN_32B ended - ended) several
    (by omega)
  rw [inside] at room
  rw [Nat.add_sub_cancel' up] at same room
  exact ⟨same, room⟩

theorem begin_following (capture : Capture) (frame : Frame)
    (consistent : Consistent capture)
    (idle : capture.encoder.encoding = false)
    (clean : Clean capture (.begin_ frame)) :
    Following (step capture (.begin_ frame)) := by
  have resting := consistent.resting idle
  have several := consistent.several
  obtain ⟨aligned, rounds⟩ := clean idle
  obtain ⟨same, within⟩ := align_inside capture.priv.memPartNum
    capture.priv.memPartSize capture.encoder.ended (by omega) resting.ended
    aligned
  have positive : 0 < capture.priv.memPartSize := by
    by_contra zero
    rw [Nat.eq_zero_of_not_pos zero, Nat.mul_zero] at within
    exact Nat.not_lt_zero _ within
  have start : (step capture (.begin_ frame)).encoder =
      { capture.encoder with
        frame := frame
        start := ALIGN_32B capture.encoder.ended
        written := 0
        encoding := true } := by
    change capture.encoder.begin_ capture.priv.ring frame = _
    have held : ALIGN_32B capture.encoder.ended < capture.priv.ring := within
    unfold Encoder.begin_
    rw [if_neg (by rw [idle]; exact Bool.false_ne_true), if_pos held]
  have priv : (step capture (.begin_ frame)).priv = capture.priv := rfl
  have copied : (step capture (.begin_ frame)).copied =
      ALIGN_32B capture.encoder.ended := by
    unfold Capture.copied
    rw [start, priv, resting.fresh, Nat.add_zero]
  have quotient : capture.encoder.ended / capture.priv.memPartSize <
      capture.priv.memPartNum := by
    rw [← same]
    exact Nat.div_lt_of_lt_mul (by rw [Nat.mul_comm]; exact within)
  refine
    { positive := positive
      rounds := by rw [start]; exact rounds
      complete := by rw [start]; exact Nat.zero_le _
      behind := by rw [start, priv, resting.fresh]
      counter := ?_
      offset := ?_
      inside := ?_
      filled := by rw [start, resting.quiet.1]; exact nofun
      last := by rw [start, resting.quiet.2]; exact nofun
      stream := by rw [start]; exact fun index none_ => nomatch none_
      buffer := by rw [priv, resting.fresh]; rfl }
  · rw [copied, priv, same, Nat.mod_eq_of_lt quotient]
    exact resting.counter
  · rw [copied, priv, Priv.ring, Nat.mod_eq_of_lt within, resting.offset,
      u32_small _ (within.trans consistent.ring)]
  · intro _
    unfold Capture.written Capture.boundary
    rw [copied, start, priv, same]
    exact aligned

theorem mod_ne (left right modulus : Nat) (before : left < right)
    (near : right < left + modulus) : left % modulus ≠ right % modulus := by
  intro same
  have divides := Nat.dvd_of_mod_eq_zero (Nat.sub_mod_eq_zero_of_mod_eq same.symm)
  have reach := Nat.le_of_dvd (by omega) divides
  omega

/-- A multiple behind a place is not before the end of the place's partition. -/
theorem multiple_behind (size place end_ : Nat) (behind : place < end_)
    (multiple : end_ % size = 0) : (place / size + 1) * size ≤ end_ := by
  obtain ⟨count, rfl⟩ := Nat.dvd_of_mod_eq_zero multiple
  rw [Nat.mul_comm]
  exact Nat.mul_le_mul_left size
    (Nat.succ_le_of_lt (Nat.div_lt_of_lt_mul behind))

structure Writing (capture : Capture) : Prop where
  encoding : capture.encoder.encoding = true
  more : capture.encoder.written < capture.encoder.frame.bytes.length
  free : ¬ (capture.encoder.partInt ∧
    capture.encoder.Fills capture.priv.memPartSize)

theorem write_following (capture : Capture) (follows : Following capture)
    (writing : Writing capture) : Following (step capture .write) := by
  have made : (step capture .write).encoder =
      { capture.encoder with
        stream := Function.update capture.encoder.stream
          (capture.encoder.place capture.priv.ring capture.encoder.written)
          (capture.encoder.frame.bytes.getD capture.encoder.written 0)
        written := capture.encoder.written + 1
        partInt := capture.encoder.partInt ||
          decide (capture.encoder.Fills capture.priv.memPartSize) } := by
    change capture.encoder.write capture.priv.ring capture.priv.memPartSize = _
    unfold Encoder.write
    rw [if_pos ⟨writing.encoding, writing.more, writing.free⟩]
  have priv : (step capture .write).priv = capture.priv := rfl
  have copied : (step capture .write).copied = capture.copied := by
    unfold Capture.copied
    rw [made, priv]
  have written : (step capture .write).written = capture.written + 1 := by
    unfold Capture.written
    rw [made, Nat.add_assoc]
  have boundary : (step capture .write).boundary = capture.boundary := by
    unfold Capture.boundary
    rw [copied, priv]
  have behind : capture.copied ≤ capture.written :=
    Nat.add_le_add_left follows.behind _
  have aligned : capture.boundary % capture.priv.memPartSize = 0 :=
    Nat.mul_mod_left _ _
  have fills : capture.encoder.Fills capture.priv.memPartSize ↔
      (capture.written + 1) % capture.priv.memPartSize = 0 := Iff.rfl
  have positive := follows.positive
  refine
    { positive := positive
      rounds := by rw [made]; exact follows.rounds
      complete := by rw [made]; exact writing.more
      behind := by rw [made, priv]; exact follows.behind.trans (Nat.le_succ _)
      counter := by rw [copied, priv]; exact follows.counter
      offset := by rw [copied, priv]; exact follows.offset
      inside := ?_
      filled := ?_
      last := ?_
      stream := ?_
      buffer := by rw [made, priv]; exact follows.buffer }
  · intro none_
    rw [made] at none_
    obtain ⟨before, open_⟩ := Bool.or_eq_false_iff.mp none_
    have inside := follows.inside before
    rw [written, boundary]
    by_contra reached
    have at_ : capture.written + 1 = capture.boundary := by omega
    rw [← at_] at aligned
    exact of_decide_eq_false open_ (fills.mpr aligned)
  · intro some_
    rw [made] at some_
    rw [written, boundary, priv]
    cases pending : capture.encoder.partInt with
    | true =>
        obtain ⟨filled, near⟩ := follows.filled pending
        refine ⟨by omega, ?_⟩
        by_contra reached
        have at_ : capture.written + 1 =
            capture.boundary + capture.priv.memPartSize := by omega
        apply writing.free
        refine ⟨pending, fills.mpr ?_⟩
        rw [at_, Nat.add_mod_right]
        exact aligned
    | false =>
        have inside := follows.inside pending
        rw [pending, Bool.false_or] at some_
        have reached := multiple_behind capture.priv.memPartSize capture.copied
          (capture.written + 1) (by omega)
          (fills.mp (of_decide_eq_true some_))
        change capture.boundary ≤ _ at reached
        omega
  · intro finished
    rw [made] at finished
    have done := follows.last finished
    have more := writing.more
    omega
  · intro index before near
    rw [made] at before near ⊢
    change index < capture.encoder.written + 1 at before
    change capture.encoder.written + 1 ≤ index + capture.priv.ring at near
    by_cases newest : index = capture.encoder.written
    · rw [newest]
      exact Function.update_self ..
    · have apart := mod_ne (capture.encoder.start + index)
        (capture.encoder.start + capture.encoder.written) capture.priv.ring
        (by omega) (by omega)
      exact (Function.update_of_ne apart _ _).trans
        (follows.stream index (by omega) (by omega))

theorem finish_following (capture : Capture) (follows : Following capture) :
    Following (step capture .finish) where
  positive := follows.positive
  rounds := follows.rounds
  complete := follows.complete
  behind := follows.behind
  counter := follows.counter
  offset := follows.offset
  inside := follows.inside
  filled := follows.filled
  last := by
    intro finished
    rcases Bool.or_eq_true_iff.mp finished with before | now
    · exact follows.last before
    · exact of_decide_eq_true (Bool.and_eq_true_iff.mp now).2
  stream := follows.stream
  buffer := follows.buffer

/-! ### Copies -/

theorem near_boundary (capture : Capture) (follows : Following capture) :
    capture.written < capture.boundary + capture.priv.memPartSize := by
  cases pending : capture.encoder.partInt with
  | true => exact (follows.filled pending).2
  | false => exact (follows.inside pending).trans_le (Nat.le_add_right _ _)

theorem boundary_near (capture : Capture) :
    capture.boundary ≤ capture.copied + capture.priv.memPartSize := by
  unfold Capture.boundary
  rw [Nat.add_mul, Nat.one_mul]
  exact Nat.add_le_add_right (Nat.div_mul_le_self _ _) _

theorem copied_before (capture : Capture) (follows : Following capture) :
    capture.copied < capture.boundary :=
  (Nat.div_lt_iff_lt_mul follows.positive).mp (Nat.lt_succ_self _)

/-- What lies between the handler's place and the encoder's, up to the end of
the partition, is there for the current frame. -/
theorem reads (capture : Capture) (several : 2 ≤ capture.priv.memPartNum)
    (follows : Following capture) (count : Nat)
    (reach : capture.copied + count ≤ capture.written)
    (within : capture.copied + count ≤ capture.boundary) :
    (∀ index, index < count →
      capture.encoder.Wrote capture.priv.ring
        (capture.priv.memPartOffSet + index)) ∧
      load capture.encoder.stream capture.priv.memPartOffSet count =
        (capture.encoder.frame.bytes.drop capture.priv.memCurSize).take count := by
  have near := near_boundary capture follows
  have end_ := boundary_near capture
  have twice : 2 * capture.priv.memPartSize ≤ capture.priv.ring :=
    Nat.mul_le_mul_right _ several
  have complete := follows.complete
  have copied : capture.copied =
    capture.encoder.start + capture.priv.memCurSize := rfl
  have written : capture.written =
    capture.encoder.start + capture.encoder.written := rfl
  have place (index : Nat) (below : index < count) :
      capture.encoder.place capture.priv.ring
          (capture.priv.memCurSize + index) =
        capture.priv.memPartOffSet + index := by
    rw [follows.offset]
    unfold Encoder.place
    rw [← Nat.add_assoc]
    exact mod_advance _ _ capture.copied index
      ((Nat.add_lt_add_left below _).trans_le within)
  constructor
  · intro index below
    constructor
    · rw [follows.offset]
      exact mod_inside _ _ capture.copied index (by omega)
        ((Nat.add_lt_add_left below _).trans_le within)
    · exact ⟨capture.priv.memCurSize + index, by omega, place index below⟩
  · apply List.ext_getElem?
    intro index
    by_cases below : index < count
    · have value := follows.stream (capture.priv.memCurSize + index) (by omega)
        (by omega)
      rw [place index below, List.getD_eq_getElem _ _ (by omega)] at value
      rw [getElem?_load _ _ _ _ below, List.getElem?_take_of_lt below,
        List.getElem?_drop, List.getElem?_eq_getElem (by omega), value]
    · rw [List.getElem?_eq_none (by rw [length_load]; omega),
        List.getElem?_eq_none (by rw [List.length_take]; omega)]

theorem buffer_longer (capture : Capture)
    (several : 2 ≤ capture.priv.memPartNum) (follows : Following capture)
    (count : Nat) (reach : capture.copied + count ≤ capture.written)
    (within : capture.copied + count ≤ capture.boundary) :
    load (store capture.priv.memPartDstBuf capture.priv.memCurSize
        (load capture.encoder.stream capture.priv.memPartOffSet count)) 0
        (capture.priv.memCurSize + count) =
      capture.encoder.frame.bytes.take (capture.priv.memCurSize + count) := by
  have content := (reads capture several follows count reach within).2
  have longer := load_store_append capture.priv.memPartDstBuf 0
    capture.priv.memCurSize
    (load capture.encoder.stream capture.priv.memPartOffSet count)
  rw [Nat.zero_add, length_load] at longer
  rw [longer, follows.buffer, content, ← List.take_add]

theorem frame_small (frame : Frame) (rounds : frame.bits + 7 < 2 ^ 32) :
    frame.bytes.length < 2 ^ 32 := by
  rw [frame.whole]
  omega

theorem encodeLen_frame (frame : Frame) (rounds : frame.bits + 7 < 2 ^ 32) :
    encodeLen (frame.bits % 2 ^ 32) = frame.bytes.length := by
  unfold encodeLen u32
  rw [frame.whole]
  omega

/-! ### The partition interrupt -/

theorem partition_minuend (capture : Capture) (follows : Following capture) :
    (partitionCopy capture.priv).minuend =
      capture.priv.memPartOffSet + (capture.boundary - capture.copied) := by
  have whole := Nat.div_add_mod capture.copied capture.priv.memPartSize
  change (capture.priv.memPartCnt + 1) * _ = _
  rw [follows.counter, follows.offset, Priv.ring, mod_ring]
  unfold Capture.boundary
  rw [Nat.add_mul, Nat.add_mul]
  rw [Nat.mul_comm] at whole
  have inside := Nat.mod_lt capture.copied follows.positive
  omega

theorem partition_minuend_le (capture : Capture)
    (consistent : Consistent capture) (follows : Following capture) :
    (partitionCopy capture.priv).minuend ≤ capture.priv.ring := by
  change (capture.priv.memPartCnt + 1) * _ ≤ _
  rw [follows.counter]
  exact partition_inside _ _ _ (by have := consistent.several; omega)

theorem partition_length (capture : Capture) (consistent : Consistent capture)
    (follows : Following capture) :
    (partitionCopy capture.priv).length = capture.boundary - capture.copied := by
  have minuend := partition_minuend capture follows
  have most := partition_minuend_le capture consistent follows
  unfold Copy.length
  change u32 (_ - (capture.priv.memPartOffSet : Int)) = _
  rw [u32_sub _ _ (by omega) (most.trans_lt consistent.ring), minuend,
    Nat.add_sub_cancel_left]

/-- The state behind the part of the handler for the partition interrupt. -/
def Capture.acknowledged (capture : Capture) : Capture :=
  { priv := partitionInterrupt capture.encoder.stream capture.priv
    encoder := { capture.encoder with partInt := false } }

theorem partition_sound (capture : Capture) (consistent : Consistent capture)
    (follows : Following capture) (pending : capture.encoder.partInt = true) :
    (partitionCopy capture.priv).Sound capture.encoder capture.priv.ring := by
  have minuend := partition_minuend capture follows
  have before := copied_before capture follows
  have filled := (follows.filled pending).1
  constructor
  · change capture.priv.memPartOffSet ≤ _
    omega
  · rw [partition_length capture consistent follows]
    exact (reads capture consistent.several follows _ (by omega)
      (by omega)).1

theorem next_partition (number place : Nat) (several : 2 ≤ number) :
    (place + 1) % number =
      if number ≤ place % number + 1 then 0 else place % number + 1 := by
  have inside := Nat.mod_lt place (by omega : 0 < number)
  rw [← Nat.mod_add_mod]
  by_cases wraps : number ≤ place % number + 1
  · have last : place % number + 1 = number := by omega
    rw [if_pos wraps, last, Nat.mod_self]
  · rw [if_neg wraps, Nat.mod_eq_of_lt (by omega)]

theorem acknowledged_copied (capture : Capture) (consistent : Consistent capture)
    (follows : Following capture) (pending : capture.encoder.partInt = true) :
    capture.acknowledged.priv.memCurSize =
        capture.priv.memCurSize + (capture.boundary - capture.copied) ∧
      capture.acknowledged.copied = capture.boundary := by
  have before := copied_before capture follows
  have filled := (follows.filled pending).1
  have small := frame_small _ follows.rounds
  have complete := follows.complete
  have copied : capture.copied =
    capture.encoder.start + capture.priv.memCurSize := rfl
  have written : capture.written =
    capture.encoder.start + capture.encoder.written := rfl
  have size : capture.acknowledged.priv.memCurSize =
      capture.priv.memCurSize + (capture.boundary - capture.copied) := by
    change u32 (capture.priv.memCurSize +
      ((partitionCopy capture.priv).length : Int)) = _
    rw [partition_length capture consistent follows, ← Nat.cast_add,
      u32_small _ (by omega)]
  refine ⟨size, ?_⟩
  change capture.encoder.start + capture.acknowledged.priv.memCurSize = _
  rw [size]
  omega

theorem acknowledged_place (capture : Capture) (consistent : Consistent capture)
    (follows : Following capture) :
    capture.acknowledged.priv.memPartCnt =
        (capture.copied / capture.priv.memPartSize + 1) %
          capture.priv.memPartNum ∧
      capture.acknowledged.priv.memPartOffSet =
        capture.acknowledged.priv.memPartCnt * capture.priv.memPartSize := by
  have several := consistent.several
  have number := consistent.number
  have small := consistent.ring
  have minuend := partition_minuend capture follows
  have most := partition_minuend_le capture consistent follows
  have inside := Nat.mod_lt
    (capture.copied / capture.priv.memPartSize)
    (by omega : 0 < capture.priv.memPartNum)
  have counter : u32 (capture.priv.memPartCnt + 1) =
      capture.priv.memPartCnt + 1 := by
    rw [← follows.counter] at inside
    exact u32_small (capture.priv.memPartCnt + 1) (by omega)
  have offset : u32 (capture.priv.memPartOffSet +
      ((partitionCopy capture.priv).length : Int)) =
        (capture.priv.memPartCnt + 1) * capture.priv.memPartSize := by
    rw [partition_length capture consistent follows, ← Nat.cast_add,
      ← minuend]
    exact u32_small _ (by omega)
  rw [next_partition _ _ several, ← follows.counter]
  unfold Capture.acknowledged partitionInterrupt
  dsimp only
  rw [counter, offset]
  by_cases wraps : capture.priv.memPartNum ≤ capture.priv.memPartCnt + 1
  · rw [if_pos wraps, if_pos wraps, Nat.zero_mul]
    exact ⟨rfl, rfl⟩
  · rw [if_neg wraps, if_neg wraps]
    exact ⟨rfl, rfl⟩

theorem acknowledged_following (capture : Capture)
    (consistent : Consistent capture) (follows : Following capture)
    (pending : capture.encoder.partInt = true) :
    Following capture.acknowledged := by
  obtain ⟨size, copied⟩ := acknowledged_copied capture consistent follows pending
  obtain ⟨counter, offset⟩ := acknowledged_place capture consistent follows
  obtain ⟨filled, near⟩ := follows.filled pending
  have before := copied_before capture follows
  have positive := follows.positive
  have quotient : capture.acknowledged.copied / capture.priv.memPartSize =
      capture.copied / capture.priv.memPartSize + 1 := by
    rw [copied]
    exact Nat.mul_div_cancel _ positive
  have here : capture.copied =
    capture.encoder.start + capture.priv.memCurSize := rfl
  have written : capture.written =
    capture.encoder.start + capture.encoder.written := rfl
  refine
    { positive := positive
      rounds := follows.rounds
      complete := follows.complete
      behind := ?_
      counter := ?_
      offset := ?_
      inside := ?_
      filled := nofun
      last := follows.last
      stream := follows.stream
      buffer := ?_ }
  · rw [size]
    change _ ≤ capture.encoder.written
    omega
  · change _ = capture.acknowledged.copied / capture.priv.memPartSize % _
    rw [quotient]
    exact counter
  · change _ = capture.acknowledged.copied %
      (capture.priv.memPartNum * capture.priv.memPartSize)
    rw [mod_ring, quotient, ← counter, offset, copied]
    unfold Capture.boundary
    rw [Nat.mul_mod_left, Nat.add_zero]
  · intro _
    change capture.written < (capture.acknowledged.copied /
      capture.priv.memPartSize + 1) * capture.priv.memPartSize
    rw [quotient, Nat.add_mul _ 1, Nat.one_mul]
    exact near
  · rw [size]
    have longer := buffer_longer capture consistent.several follows
      (capture.boundary - capture.copied) (by omega) (by omega)
    rw [← partition_length capture consistent follows] at longer ⊢
    exact longer

/-! ### The finish interrupt -/

theorem rest_length (priv : Priv) (len : Nat) (ordered : priv.memCurSize ≤ len)
    (small : len < 2 ^ 32) :
    (restCopy priv len).length = len - priv.memCurSize :=
  u32_sub len priv.memCurSize ordered small

/-- With no partition pending, the encoder is in the handler's partition, and
what is left of the frame lies there. -/
theorem finish_copies (capture : Capture) (consistent : Consistent capture)
    (follows : Following capture) (none_ : capture.encoder.partInt = false)
    (finished : capture.encoder.finishInt = true) :
    (restCopy capture.priv capture.encoder.frame.bytes.length).Sound
        capture.encoder capture.priv.ring ∧
      load (copyRest capture.encoder.stream capture.priv
          capture.encoder.frame.bytes.length).memPartDstBuf 0
          capture.encoder.frame.bytes.length =
        capture.encoder.frame.bytes := by
  have inside := follows.inside none_
  have all := follows.last finished
  have behind := follows.behind
  have copied : capture.copied =
    capture.encoder.start + capture.priv.memCurSize := rfl
  have written : capture.written =
    capture.encoder.start + capture.encoder.written := rfl
  have length := rest_length capture.priv capture.encoder.frame.bytes.length
    (by omega) (frame_small _ follows.rounds)
  constructor
  · constructor
    · change capture.priv.memCurSize ≤ capture.encoder.frame.bytes.length
      omega
    · rw [length]
      exact (reads capture consistent.several follows _ (by omega)
        (by omega)).1
  · have longer := buffer_longer capture consistent.several follows
      (capture.encoder.frame.bytes.length - capture.priv.memCurSize)
      (by omega) (by omega)
    rw [Nat.add_sub_cancel' (by omega), List.take_length, ← length] at longer
    exact longer

theorem finish_resting (capture : Capture) (consistent : Consistent capture)
    (follows : Following capture) (none_ : capture.encoder.partInt = false)
    (finished : capture.encoder.finishInt = true) :
    Resting
      { priv := copyRest capture.encoder.stream capture.priv
          capture.encoder.frame.bytes.length
        encoder := capture.encoder.clear capture.priv.ring } := by
  have inside := follows.inside none_
  have all := follows.last finished
  have behind := follows.behind
  have copied : capture.copied =
    capture.encoder.start + capture.priv.memCurSize := rfl
  have written : capture.written =
    capture.encoder.start + capture.encoder.written := rfl
  have length : (restCopy capture.priv
      capture.encoder.frame.bytes.length).length =
        capture.encoder.written - capture.priv.memCurSize := by
    rw [all] at behind ⊢
    exact rest_length _ _ behind (frame_small _ follows.rounds)
  have line : capture.copied +
      (capture.encoder.written - capture.priv.memCurSize) = capture.written := by
    omega
  have cleared : capture.encoder.clear capture.priv.ring =
      { capture.encoder with
        ended := capture.written % capture.priv.ring
        encoding := false
        partInt := false
        finishInt := false } := by
    unfold Encoder.clear
    rw [if_pos finished]
    rfl
  have ended : capture.written % capture.priv.ring =
      capture.priv.memPartOffSet +
        (capture.encoder.written - capture.priv.memCurSize) := by
    rw [← line, follows.offset]
    exact mod_advance _ _ _ _ (by rw [line]; exact inside)
  rw [cleared]
  refine
    { quiet := ⟨rfl, rfl⟩
      fresh := rfl
      ended := Nat.mod_mod _ _
      counter := ?_
      offset := ?_ }
  · change capture.priv.memPartCnt =
      capture.written % (_ * capture.priv.memPartSize) /
        capture.priv.memPartSize
    rw [Nat.mod_mul_left_div_self, follows.counter, ← line,
      div_same _ _ _ (by rw [line]; exact inside)]
  · change u32 (ALIGN_32B (u32 (capture.priv.memPartOffSet + ((restCopy
      capture.priv capture.encoder.frame.bytes.length).length : Int))) : Nat) = _
    have several := consistent.several
    have place : capture.written % capture.priv.ring < capture.priv.ring :=
      Nat.mod_lt _ (Nat.mul_pos (by omega) follows.positive)
    rw [length, ← Nat.cast_add, ← ended,
      u32_small _ (place.trans consistent.ring)]

/-! ### The handler -/

/-- Where both are pending, the handler serves the partition first and is then
where it is with the finish interrupt alone. -/
theorem served_acknowledged (capture : Capture)
    (pending : capture.encoder.partInt = true) :
    capture.served =
        { capture.acknowledged.served with
          copies := partitionCopy capture.priv ::
            capture.acknowledged.served.copies } ∧
      capture.acknowledged.encoder.clear capture.priv.ring =
        capture.encoder.clear capture.priv.ring := by
  constructor
  · unfold Capture.served CSI_JPEG_IRQHandler Capture.acknowledged
    dsimp only
    rw [pending]
    cases capture.encoder.finishInt with
    | false => rfl
    | true =>
        generalize encodeLen (capture.encoder.frame.bits % 2 ^ 32) = len
        by_cases ordered :
            (partitionInterrupt capture.encoder.stream capture.priv).memCurSize ≤
              len
        · simp [ordered]
        · simp [ordered]
  · unfold Encoder.clear Capture.acknowledged
    cases capture.encoder.finishInt with
    | false => rfl
    | true => rfl

theorem served_finished (capture : Capture) (follows : Following capture)
    (none_ : capture.encoder.partInt = false)
    (finished : capture.encoder.finishInt = true) :
    capture.served =
      { priv := copyRest capture.encoder.stream capture.priv
          capture.encoder.frame.bytes.length
        copies := [restCopy capture.priv capture.encoder.frame.bytes.length]
        cb := some capture.encoder.frame.bytes.length } := by
  have ordered : capture.priv.memCurSize ≤
      capture.encoder.frame.bytes.length := by
    rw [← follows.last finished]
    exact follows.behind
  unfold Capture.served CSI_JPEG_IRQHandler
  rw [none_, finished, encodeLen_frame _ follows.rounds]
  exact if_pos ordered

theorem quiet_irq (capture : Capture)
    (none_ : capture.encoder.partInt = false)
    (unfinished : capture.encoder.finishInt = false) :
    Faithful capture .irq ∧ step capture .irq = capture := by
  have served : capture.served =
      { priv := capture.priv
        copies := []
        cb := none } := by
    unfold Capture.served CSI_JPEG_IRQHandler
    rw [none_, unfinished]
    rfl
  have cleared : capture.encoder.clear capture.priv.ring = capture.encoder := by
    unfold Encoder.clear
    rw [if_neg (by rw [unfinished]; exact Bool.false_ne_true), ← none_]
  constructor
  · unfold Faithful
    rw [served]
    exact ⟨nofun, nofun⟩
  · change Capture.mk capture.served.priv _ = _
    rw [served, cleared]

theorem finish_irq (capture : Capture) (consistent : Consistent capture)
    (follows : Following capture) (none_ : capture.encoder.partInt = false) :
    Faithful capture .irq ∧ Consistent (step capture .irq) := by
  cases finished : capture.encoder.finishInt with
  | false =>
      obtain ⟨faithful, same⟩ := quiet_irq capture none_ finished
      rw [same]
      exact ⟨faithful, consistent⟩
  | true =>
      have served := served_finished capture follows none_ finished
      obtain ⟨sound, whole⟩ :=
        finish_copies capture consistent follows none_ finished
      have rests := finish_resting capture consistent follows none_ finished
      constructor
      · constructor
        · rw [served]
          intro copy member
          rw [List.mem_singleton.mp member]
          exact sound
        · rw [served]
          intro len called
          rw [← Option.some.inj called]
          exact whole
      · have next : step capture .irq =
            { priv := copyRest capture.encoder.stream capture.priv
                capture.encoder.frame.bytes.length
              encoder := capture.encoder.clear capture.priv.ring } := by
          change Capture.mk capture.served.priv _ = _
          rw [served]
        rw [next]
        refine
          { several := consistent.several
            number := consistent.number
            ring := consistent.ring
            resting := fun _ => rests
            following := ?_ }
        intro busy
        unfold Encoder.clear at busy
        rw [if_pos finished] at busy
        cases busy

theorem irq_faithful (capture : Capture) (consistent : Consistent capture)
    (follows : Following capture) (busy : capture.encoder.encoding = true) :
    Faithful capture .irq ∧ Consistent (step capture .irq) := by
  cases pending : capture.encoder.partInt with
  | false => exact finish_irq capture consistent follows pending
  | true =>
      obtain ⟨served, cleared⟩ := served_acknowledged capture pending
      have between : Consistent capture.acknowledged :=
        { several := consistent.several
          number := consistent.number
          ring := consistent.ring
          resting := fun idle => by
            change capture.encoder.encoding = false at idle
            rw [busy] at idle
            cases idle
          following := fun _ =>
            acknowledged_following capture consistent follows pending }
      obtain ⟨⟨copies, callback⟩, after⟩ := finish_irq capture.acknowledged
        between (acknowledged_following capture consistent follows pending) rfl
      constructor
      · constructor
        · rw [served]
          intro copy member
          rcases List.mem_cons.mp member with rfl | later
          · exact partition_sound capture consistent follows pending
          · exact copies copy later
        · rw [served]
          exact callback
      · have next : step capture .irq = step capture.acknowledged .irq := by
          change Capture.mk capture.served.priv _ =
            Capture.mk capture.acknowledged.served.priv
              (capture.acknowledged.encoder.clear capture.priv.ring)
          rw [served, cleared]
        rw [next]
        exact after

/-! ### Runs -/

theorem write_consistent (capture : Capture) (consistent : Consistent capture) :
    Consistent (step capture .write) := by
  by_cases writing : Writing capture
  · have busy : (step capture .write).encoder.encoding = true := by
      change (capture.encoder.write _ _).encoding = true
      unfold Encoder.write
      rw [if_pos ⟨writing.encoding, writing.more, writing.free⟩]
      exact writing.encoding
    exact
      { several := consistent.several
        number := consistent.number
        ring := consistent.ring
        resting := fun idle => by
          rw [busy] at idle
          cases idle
        following := fun _ => write_following capture
          (consistent.following writing.encoding) writing }
  · have same : step capture .write = capture := by
      change Capture.mk capture.priv (capture.encoder.write _ _) = _
      unfold Encoder.write
      rw [if_neg fun all => writing ⟨all.1, all.2.1, all.2.2⟩]
    rw [same]
    exact consistent

theorem finish_consistent (capture : Capture)
    (consistent : Consistent capture) : Consistent (step capture .finish) where
  several := consistent.several
  number := consistent.number
  ring := consistent.ring
  resting idle := by
    change capture.encoder.encoding = false at idle
    obtain ⟨quiet, fresh, ended, counter, offset⟩ := consistent.resting idle
    refine ⟨⟨quiet.1, ?_⟩, fresh, ended, counter, offset⟩
    change (capture.encoder.finishInt || (capture.encoder.encoding && _)) = false
    rw [quiet.2, idle]
    rfl
  following busy := finish_following capture (consistent.following busy)

theorem begin_consistent (capture : Capture) (frame : Frame)
    (consistent : Consistent capture)
    (clean : Clean capture (.begin_ frame)) :
    Consistent (step capture (.begin_ frame)) := by
  cases encoding : capture.encoder.encoding with
  | true =>
      have same : step capture (.begin_ frame) = capture := by
        change Capture.mk capture.priv (capture.encoder.begin_ _ frame) = _
        unfold Encoder.begin_
        rw [if_pos encoding]
      rw [same]
      exact consistent
  | false =>
      have busy : (step capture (.begin_ frame)).encoder.encoding = true := by
        change (capture.encoder.begin_ _ frame).encoding = true
        unfold Encoder.begin_
        rw [if_neg (by rw [encoding]; exact Bool.false_ne_true)]
      exact
        { several := consistent.several
          number := consistent.number
          ring := consistent.ring
          resting := fun idle => by
            rw [busy] at idle
            cases idle
          following := fun _ =>
            begin_following capture frame consistent encoding clean }

theorem irq_consistent (capture : Capture) (consistent : Consistent capture) :
    Faithful capture .irq ∧ Consistent (step capture .irq) := by
  cases encoding : capture.encoder.encoding with
  | true =>
      exact irq_faithful capture consistent (consistent.following encoding)
        encoding
  | false =>
      obtain ⟨none_, unfinished⟩ := (consistent.resting encoding).quiet
      obtain ⟨faithful, same⟩ := quiet_irq capture none_ unfinished
      rw [same]
      exact ⟨faithful, consistent⟩

theorem step_consistent (capture : Capture) (event : Event)
    (consistent : Consistent capture) (clean : Clean capture event) :
    Consistent (step capture event) := by
  cases event with
  | begin_ frame => exact begin_consistent capture frame consistent clean
  | write => exact write_consistent capture consistent
  | finish => exact finish_consistent capture consistent
  | irq => exact (irq_consistent capture consistent).2

theorem step_faithful (capture : Capture) (event : Event)
    (consistent : Consistent capture) (_ : Clean capture event) :
    Faithful capture event := by
  cases event with
  | begin_ frame => trivial
  | write => trivial
  | finish => trivial
  | irq => exact (irq_consistent capture consistent).1

/-- As long as no frame begins behind one whose aligned end left its partition,
the handler copies each frame whole and reads nothing else. -/
theorem captures_faithful (cfg : JPEG_ConfigParam) (stream : Nat → Byte)
    (events : List Event)
    (clean : Along step Clean (Capture.configured cfg stream) events) :
    Along step Faithful (Capture.configured cfg stream) events :=
  along_of_along Faithful Clean Consistent step_consistent step_faithful
    (Capture.configured cfg stream) (consistent_configured cfg stream) events
    clean

theorem firstNumber_lt : 0 < 4 := by decide

/-- A ring of two partitions. -/
def twoPartitions (size : BitVec 32) : JPEG_ConfigParam :=
  { outstreamMemSize := size
    memPartNum := ⟨0, firstNumber_lt⟩
    memPartBuf := fun _ => 0 }

def wordFrame (words : Nat) : Frame :=
  { bits := 32 * words
    bytes := List.replicate (4 * words) 1
    whole := by
      rw [List.length_replicate]
      omega }

def capturing (words : Nat) : List Event :=
  .begin_ (wordFrame words) ::
    (List.replicate (4 * words) .write ++ [.finish, .irq])

/-- A frame that fills the first partition, and one behind it. -/
theorem fullPartition_faithful :
    Along step Faithful (Capture.configured (twoPartitions 64) fun _ => 0)
      (capturing 8 ++ capturing 1) :=
  captures_faithful (twoPartitions 64) (fun _ => 0)
    (capturing 8 ++ capturing 1) (by decide +kernel)

/-- The offset behind a frame that ends in the first partition is aligned to the
end of the ring, and the next frame is copied from outside of it. -/
theorem alignedOut_unfaithful :
    ¬ ∀ events, Along step Faithful
      (Capture.configured (twoPartitions 32) fun _ => 0) events := by
  intro all
  have faithful := all (capturing 1 ++ capturing 1)
  revert faithful
  decide

end XR872.Jpeg
