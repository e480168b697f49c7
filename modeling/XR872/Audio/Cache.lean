/-
What becomes of the data that is written.

The driver has got it, or it waits in the cache, in order and once. That is so
as long as the driver takes what is a whole half of its buffer: a refusal of
that much is not noticed.
-/

import XR872.Audio.Pcm
import XR872.Library.Run

namespace XR872.Audio

open BitView
open Memories
open Runs

/-- What the driver got, without padding. -/
def payload (handed : List (List Byte × Nat)) : List Byte :=
  handed.flatMap fun chunk => chunk.1.take (chunk.1.length - chunk.2)

structure Conserved (size : Nat) (priv : PlayPriv) : Prop where
  fits : priv.length < size
  data : payload priv.handed ++ load priv.cache 0 priv.length = priv.accepted
  inside : ∀ copy ∈ priv.copies, copy.1 + copy.2 ≤ size

/-- The driver is not suspended when it is given as much as it takes: the full
cache, or a direct portion of a buffer or more. -/
def PushesHeard (size : Nat) (priv : PlayPriv) : PcmCall → Prop
  | .write locked data push direct =>
      locked = true →
        (priv.length ≠ 0 → size - priv.length ≤ data.val.length →
          push.suspended = false) ∧
        (size ≤ data.val.length -
            (if priv.length = 0 then 0 else size - priv.length) →
          direct.suspended = false)
  | .flush push _ _ => priv.length ≠ 0 → push.suspended = false

theorem payload_append (handed : List (List Byte × Nat)) (taken : List Byte)
    (padding : Nat) :
    payload (handed ++ [(taken, padding)]) =
      payload handed ++ taken.take (taken.length - padding) := by
  unfold payload
  rw [List.flatMap_append, List.flatMap_singleton]

section

variable (size : Nat)

theorem halCodecWriteDma_refused (answer : CodecAnswer) (data : List Byte)
    (refused : answer.suspended = true ∨ data.length < size) :
    halCodecWriteDma size answer data = (answer.refusal, []) :=
  if_pos refused

theorem halCodecWriteDma_taken (answer : CodecAnswer) (data : List Byte)
    (heard : answer.suspended = false) (enough : size ≤ data.length) :
    halCodecWriteDma size answer data =
      (((data.length / size * size : Nat) : Int),
        data.take (data.length / size * size)) := by
  unfold halCodecWriteDma
  rw [if_neg]
  rintro (suspended | short)
  · rw [heard] at suspended
    cases suspended
  · omega

theorem halCodecWriteDma_cache (answer : CodecAnswer) (cache : Nat → Byte)
    (positive : 0 < size) (heard : answer.suspended = false) :
    (halCodecWriteDma size answer (load cache 0 size)).2 =
      load cache 0 size := by
  rw [halCodecWriteDma_taken size answer _ heard (by rw [length_load])]
  dsimp only
  rw [length_load, Nat.div_self positive, Nat.one_mul, List.take_of_length_le]
  rw [length_load]

/-! ### The direct portion -/

structure Emptied (data : List Byte) (priv : PlayPriv) : Prop where
  data : payload priv.handed ++ data = priv.accepted
  inside : ∀ copy ∈ priv.copies, copy.1 + copy.2 ≤ size

theorem conserved_stash (priv : PlayPriv) (taken rest : List Byte)
    (before : Emptied size (taken ++ rest) priv) (short : rest.length < size) :
    Conserved size {
      copyIn { priv with handed := priv.handed ++ [(taken, 0)] } 0 rest.length
        rest with
      length := rest.length } where
  fits := short
  data := by
    dsimp only [copyIn]
    rw [payload_append, List.take_length, load_store, Nat.sub_zero,
      List.take_length, List.append_assoc]
    exact before.data
  inside := by
    intro copy member
    rcases List.mem_append.mp member with earlier | now
    · exact before.inside copy earlier
    · rw [List.mem_singleton.mp now]
      dsimp only
      omega

theorem conserved_whole (priv : PlayPriv) (data : List Byte)
    (before : Emptied size data priv) (positive : 0 < size) :
    Conserved size {
      priv with
      handed := priv.handed ++ [(data, 0)]
      length := 0 } where
  fits := positive
  data := by
    dsimp only
    rw [payload_append, load_zero, List.append_nil, Nat.sub_zero,
      List.take_length]
    exact before.data
  inside := before.inside

theorem conserved_writeDirect_refused (positive : 0 < size)
    (answer : CodecAnswer) (data : List Byte) (priv : PlayPriv)
    (before : Emptied size data priv)
    (refused : answer.suspended = true ∨ data.length < size) :
    Conserved size (writeDirect size answer data priv) ↔
      data.length < size := by
  have nothing := answer.nothing
  unfold writeDirect
  rw [halCodecWriteDma_refused size answer data refused]
  dsimp only
  rw [if_neg (by omega)]
  by_cases empty : answer.refusal = data.length
  · rw [if_pos empty]
    have isEmpty : data = [] := List.length_eq_zero_iff.mp (by omega)
    rw [isEmpty] at before ⊢
    exact iff_of_true (conserved_whole size priv [] before positive) positive
  · rw [if_neg empty]
    exact ⟨fun conserved => conserved.fits,
      conserved_stash size priv [] data before⟩

theorem conserved_writeDirect_taken (positive : 0 < size)
    (answer : CodecAnswer) (data : List Byte) (priv : PlayPriv)
    (before : Emptied size data priv) (heard : answer.suspended = false)
    (enough : size ≤ data.length) :
    Conserved size (writeDirect size answer data priv) := by
  have split := Nat.div_add_mod data.length size
  have small := Nat.mod_lt data.length positive
  rw [Nat.mul_comm] at split
  unfold writeDirect
  rw [halCodecWriteDma_taken size answer data heard enough]
  dsimp only
  rw [Int.toNat_natCast]
  by_cases whole : data.length / size * size = data.length
  · rw [if_neg (fun part => part.2 (congrArg Nat.cast whole)),
      if_pos (congrArg Nat.cast whole), whole, List.take_length]
    exact conserved_whole size priv data before positive
  · rw [if_pos ⟨by omega, fun same => whole (Int.ofNat_inj.mp same)⟩]
    have rest := conserved_stash size priv
      (data.take (data.length / size * size))
      (data.drop (data.length / size * size))
    rw [List.take_append_drop, List.length_drop] at rest
    exact rest before (by omega)

/-- With an empty cache, a write to the driver keeps everything exactly if a
suspended driver is not given a buffer or more. -/
theorem conserved_writeDirect (positive : 0 < size) (answer : CodecAnswer)
    (data : List Byte) (priv : PlayPriv) (before : Emptied size data priv) :
    Conserved size (writeDirect size answer data priv) ↔
      (size ≤ data.length → answer.suspended = false) := by
  by_cases refused : answer.suspended = true ∨ data.length < size
  · rw [conserved_writeDirect_refused size positive answer data priv before
      refused]
    constructor
    · intro short large
      omega
    · intro heard
      rcases refused with suspended | short
      · by_contra large
        rw [heard (by omega)] at suspended
        cases suspended
      · exact short
  · obtain ⟨heard, enough⟩ := not_or.mp refused
    rw [Bool.not_eq_true] at heard
    exact iff_of_true
      (conserved_writeDirect_taken size positive answer data priv before heard
        (by omega))
      (fun _ => heard)

/-- Bytes with the driver and bytes in the cache, as many as were given. -/
theorem count_writeDirect (positive : 0 < size) (answer : CodecAnswer)
    (data : List Byte) (priv : PlayPriv) :
    (payload (writeDirect size answer data priv).handed).length +
        (writeDirect size answer data priv).length =
      (payload priv.handed).length + data.length := by
  have nothing := answer.nothing
  by_cases refused : answer.suspended = true ∨ data.length < size
  · unfold writeDirect
    rw [halCodecWriteDma_refused size answer data refused]
    dsimp only
    rw [if_neg (by omega)]
    split
    · rename_i empty
      rw [payload_append, List.length_append]
      simp only [List.length_nil, Nat.zero_sub, List.take_nil]
      omega
    · dsimp only [copyIn]
      rw [payload_append, List.length_append]
      simp only [List.length_nil, Nat.zero_sub, List.take_nil, Nat.add_zero]
  · obtain ⟨heard, enough⟩ := not_or.mp refused
    rw [Bool.not_eq_true] at heard
    have taken := Nat.div_mul_le_self data.length size
    have some : 0 < data.length / size * size :=
      Nat.mul_pos (Nat.div_pos (by omega) positive) positive
    unfold writeDirect
    rw [halCodecWriteDma_taken size answer data heard (by omega)]
    dsimp only
    rw [Int.toNat_natCast]
    split
    · dsimp only [copyIn]
      rw [payload_append, List.length_append, Nat.sub_zero, List.take_length,
        List.length_take, Nat.min_eq_left taken]
      omega
    · rename_i whole
      split
      · rename_i same
        dsimp only
        rw [payload_append, List.length_append, Nat.sub_zero, List.take_length,
          List.length_take, Nat.min_eq_left taken, Int.ofNat_inj.mp same]
        omega
      · rename_i other
        exact absurd ⟨by omega, other⟩ whole

theorem accepted_writeDirect (answer : CodecAnswer) (data : List Byte)
    (priv : PlayPriv) :
    (writeDirect size answer data priv).accepted = priv.accepted ∧
      (writeDirect size answer data priv).allocated = priv.allocated := by
  unfold writeDirect
  dsimp only
  split
  · exact ⟨rfl, rfl⟩
  · split
    · exact ⟨rfl, rfl⟩
    · exact ⟨rfl, rfl⟩

/-- Bytes that are neither with the driver nor given again are missed. -/
theorem lost_writeDirect (positive : 0 < size) (answer : CodecAnswer)
    (data : List Byte) (priv : PlayPriv)
    (lost : (payload priv.handed).length + data.length <
      priv.accepted.length) :
    ¬ Conserved size (writeDirect size answer data priv) := by
  intro conserved
  have same := congrArg List.length conserved.data
  rw [List.length_append, length_load, count_writeDirect size positive,
    (accepted_writeDirect size answer data priv).1] at same
  omega

/-! ### The cache -/

theorem load_completed (cache : Nat → Byte) (length : Nat) (data : List Byte)
    (within : length ≤ size) (enough : size - length ≤ data.length) :
    load (store cache length (data.take (size - length))) 0 size =
      load cache 0 length ++ data.take (size - length) := by
  have append := load_store_append cache 0 length (data.take (size - length))
  rw [Nat.zero_add, List.length_take, Nat.min_eq_left enough,
    Nat.add_sub_cancel' within] at append
  exact append

/-- A write that fills the cache keeps everything exactly if the driver takes
the cache, and the direct portion if it is a buffer or more. -/
theorem conserved_filled (positive : 0 < size) (data : List Byte)
    (push direct : CodecAnswer) (priv : PlayPriv)
    (conserved : Conserved size priv)
    (enough : size - priv.length ≤ data.length) :
    Conserved size (writeDirect size direct (data.drop (size - priv.length)) {
        pushCache size push 0
          (copyIn priv priv.length (size - priv.length) data) with
        length := 0
        accepted := priv.accepted ++ data }) ↔
      push.suspended = false ∧
        (size ≤ data.length - (size - priv.length) →
          direct.suspended = false) := by
  have fits := conserved.fits
  have whole := conserved.data
  cases heard : push.suspended with
  | true =>
      refine iff_of_false (lost_writeDirect size positive direct _ _ ?_)
        (fun taken => by cases taken.1)
      have counts := congrArg List.length whole
      rw [List.length_append, length_load] at counts
      dsimp only [pushCache, copyIn]
      rw [halCodecWriteDma_refused size push _ (.inl heard), payload_append,
        List.length_append, List.length_append, List.length_drop]
      simp only [List.length_nil, Nat.zero_sub, List.take_nil]
      omega
  | false =>
      rw [← List.length_drop]
      refine (conserved_writeDirect size positive direct _ _ ?_).trans
        (and_iff_right rfl).symm
      constructor
      · dsimp only [pushCache, copyIn]
        rw [halCodecWriteDma_cache size push _ positive heard, payload_append,
          Nat.sub_zero, List.take_length,
          load_completed size _ _ _ (by omega) enough, ← whole,
          List.append_assoc, List.append_assoc, List.append_assoc,
          List.take_append_drop]
      · intro copy member
        rcases List.mem_append.mp member with earlier | now
        · exact conserved.inside copy earlier
        · rw [List.mem_singleton.mp now]
          dsimp only
          omega

theorem conserved_write (positive : 0 < size) (locked : Bool) (data : PcmData)
    (push direct : CodecAnswer) (priv : PlayPriv)
    (allocated : priv.allocated = true) (conserved : Conserved size priv) :
    Conserved size (pcmStep size priv (.write locked data push direct)) ↔
      PushesHeard size priv (.write locked data push direct) := by
  have fits := conserved.fits
  have whole := conserved.data
  change Conserved size (sndPcmWrite size locked data.val push direct priv).2 ↔
    (locked = true → _ ∧ _)
  unfold sndPcmWrite
  cases locked with
  | false => exact iff_of_true conserved nofun
  | true =>
      have isOpen : (!priv.allocated) = false := by
        rw [allocated]
        rfl
      simp only [Bool.not_true, Bool.false_eq_true, if_false, isOpen,
        true_implies]
      by_cases empty : priv.length = 0
      · rw [if_neg (not_not_intro empty), if_pos empty, Nat.sub_zero]
        rw [empty, load_zero, List.append_nil] at whole
        have emptied : Emptied size data.val
            { priv with accepted := priv.accepted ++ data.val } :=
          ⟨congrArg (· ++ data.val) whole, conserved.inside⟩
        refine (conserved_writeDirect size positive direct data.val _
          emptied).trans ?_
        exact (and_iff_right fun some => absurd empty some).symm
      · rw [if_pos empty, if_neg empty]
        by_cases short : data.val.length < size - priv.length
        · rw [if_pos short]
          refine iff_of_true ?_
            ⟨fun _ enough => by omega, fun large => by omega⟩
          refine ⟨by dsimp only; omega, ?_, ?_⟩
          · have append := load_store_append priv.cache 0 priv.length data.val
            rw [Nat.zero_add] at append
            dsimp only [copyIn]
            rw [List.take_length, append, ← whole, List.append_assoc]
          · intro copy member
            rcases List.mem_append.mp member with earlier | now
            · exact conserved.inside copy earlier
            · rw [List.mem_singleton.mp now]
              dsimp only
              omega
        · rw [if_neg short]
          have enough : size - priv.length ≤ data.val.length := by omega
          refine (conserved_filled size positive data.val push direct priv
            conserved enough).trans (and_congr ?_ Iff.rfl)
          exact ⟨fun heard _ _ => heard, fun heard => heard empty enough⟩

/-! ### Flush -/

theorem payload_padding (handed : List (List Byte × Nat)) (answer : CodecAnswer)
    (cache : Nat → Byte) :
    payload (handed ++
      [((halCodecWriteDma size answer (load cache 0 size)).2, size)]) =
        payload handed := by
  have short : (halCodecWriteDma size answer (load cache 0 size)).2.length ≤
      size := by
    unfold halCodecWriteDma
    split
    · exact Nat.zero_le _
    · refine Nat.le_trans (List.length_take_le' _ _) ?_
      rw [length_load]
  rw [payload_append, Nat.sub_eq_zero_of_le short, List.take_zero,
    List.append_nil]

theorem conserved_silence (positive : 0 < size) (first second : CodecAnswer)
    (priv : PlayPriv) (empty : priv.length = 0) :
    Conserved size (pushCache size second size
        (pushCache size first size (clearCache 0 size priv))) ↔
      Emptied size [] priv := by
  have silent : payload (pushCache size second size (pushCache size first size
      (clearCache 0 size priv))).handed = payload priv.handed := by
    unfold pushCache
    dsimp only
    rw [payload_padding, payload_padding]
    rfl
  constructor
  · intro conserved
    have data := conserved.data
    rw [silent] at data
    refine ⟨?_, fun copy member => conserved.inside copy ?_⟩
    · change payload priv.handed ++ load _ 0 priv.length = priv.accepted at data
      rw [empty] at data
      exact data
    · exact List.mem_append_left _ member
  · intro emptied
    refine ⟨?_, ?_, ?_⟩
    · change priv.length < size
      omega
    · rw [silent]
      change payload priv.handed ++ load _ 0 priv.length = priv.accepted
      rw [empty]
      exact emptied.data
    · intro copy member
      rcases List.mem_append.mp member with earlier | now
      · exact emptied.inside copy earlier
      · rw [List.mem_singleton.mp now]
        dsimp only
        omega

/-- What is in the cache gets to the driver with the padding behind it exactly
if it takes the cache. -/
theorem emptied_flush (positive : 0 < size) (push : CodecAnswer)
    (priv : PlayPriv) (conserved : Conserved size priv)
    (some : priv.length ≠ 0) :
    Emptied size [] {
        pushCache size push (size - priv.length)
          (clearCache priv.length (size - priv.length) priv) with
        length := 0 } ↔ push.suspended = false := by
  have fits := conserved.fits
  have whole := conserved.data
  constructor
  · intro emptied
    by_contra suspended
    rw [Bool.not_eq_false] at suspended
    have data := emptied.data
    dsimp only [pushCache, clearCache, copyIn] at data
    rw [halCodecWriteDma_refused size push _ (.inl suspended), payload_append,
      List.take_nil, List.append_nil, List.append_nil, ← whole] at data
    have counts := congrArg List.length data
    rw [List.length_append, length_load] at counts
    omega
  · intro heard
    refine ⟨?_, ?_⟩
    · dsimp only [pushCache, clearCache, copyIn]
      have front : size - (size - priv.length) =
          (load priv.cache 0 priv.length).length := by
        rw [length_load]
        omega
      rw [halCodecWriteDma_cache size push _ positive heard, payload_append,
        length_load, load_completed size _ _ _ (by omega)
          (by rw [List.length_replicate]), front, List.take_left,
        List.append_nil]
      exact whole
    · intro copy member
      rcases List.mem_append.mp member with earlier | now
      · exact conserved.inside copy earlier
      · rw [List.mem_singleton.mp now]
        dsimp only
        omega

theorem conserved_flush (positive : 0 < size) (push first second : CodecAnswer)
    (priv : PlayPriv) (allocated : priv.allocated = true)
    (conserved : Conserved size priv) :
    Conserved size (pcmStep size priv (.flush push first second)) ↔
      PushesHeard size priv (.flush push first second) := by
  change Conserved size (sndPcmFlush size push first second priv).2 ↔
    (priv.length ≠ 0 → push.suspended = false)
  unfold sndPcmFlush
  have isOpen : (!priv.allocated) = false := by
    rw [allocated]
    rfl
  simp only [isOpen, Bool.false_eq_true, if_false]
  by_cases empty : priv.length = 0
  · rw [if_neg (not_not_intro empty)]
    refine (conserved_silence size positive first second priv empty).trans ?_
    refine iff_of_true ⟨?_, conserved.inside⟩ (fun some => absurd empty some)
    have whole := conserved.data
    rw [empty] at whole
    exact whole
  · rw [if_pos empty]
    refine (conserved_silence size positive first second _ rfl).trans ?_
    refine (emptied_flush size positive push priv conserved empty).trans ?_
    exact ⟨fun heard _ => heard, fun heard => heard empty⟩

/-! ### Runs -/

theorem pcmStep_allocated (priv : PlayPriv) (call : PcmCall)
    (allocated : priv.allocated = true) :
    (pcmStep size priv call).allocated = true := by
  cases call with
  | write locked data push direct =>
      change (sndPcmWrite size locked data.val push direct priv).2.allocated =
        true
      unfold sndPcmWrite
      dsimp only
      split
      · exact allocated
      · split
        · split
          · exact allocated
          · split
            · exact allocated
            · exact (accepted_writeDirect size direct _ _).2.trans allocated
        · exact (accepted_writeDirect size direct _ _).2.trans allocated
  | flush push first second =>
      change (sndPcmFlush size push first second priv).2.allocated = true
      unfold sndPcmFlush
      dsimp only
      split
      · exact allocated
      · split
        · exact allocated
        · exact allocated

end

/-- In every run of writes and flushes, nothing is lost, repeated or put beside
the cache exactly if no push of a buffer or more meets a suspended driver. -/
theorem conserved_along (stream : PcmStream) (cache : Nat → Byte)
    (calls : List PcmCall) :
    Always (pcmStep (bufSize stream.val)) (Conserved (bufSize stream.val))
        (.opened cache) calls ↔
      Along (pcmStep (bufSize stream.val)) (PushesHeard (bufSize stream.val))
        (.opened cache) calls := by
  have positive := stream.property
  refine always_iff_along (Conserved (bufSize stream.val))
    (PushesHeard (bufSize stream.val)) (fun priv => priv.allocated = true)
    ?_ ?_ (.opened cache) rfl ?_ calls
  · intro priv call allocated _ _
    exact pcmStep_allocated _ priv call allocated
  · intro priv call allocated conserved
    cases call with
    | write locked data push direct =>
        exact conserved_write _ positive locked data push direct priv allocated
          conserved
    | flush push first second =>
        exact conserved_flush _ positive push first second priv allocated
          conserved
  · exact ⟨positive, rfl, fun copy none => (by cases none)⟩

/-- A cache of four bytes. -/
def fourBytes : PcmStream :=
  ⟨{ channels := 1, format := .s16Le, periodSize := 2, periodCount := 2 },
    by decide⟩

def suspended : CodecAnswer :=
  { suspended := true, refusal := 0, nothing := by decide }

/-- Five bytes given to a suspended driver are copied to the cache of four. -/
theorem suspended_overflows :
    ¬ Always (pcmStep (bufSize fourBytes.val)) (Conserved (bufSize fourBytes.val))
      (.opened fun _ => 0)
      [.write true ⟨[1, 2, 3, 4, 5], by decide⟩ suspended suspended] := by
  intro always
  have fits := (always _ List.prefix_rfl).fits
  exact absurd fits (by decide)

end XR872.Audio
