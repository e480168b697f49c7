/-
One direction of the I2S driver: the two halves of the buffer that the DMA goes
around in, and what its callbacks count.

Playback and recording have the same variables and the same callbacks, each its
own. A pointer into the buffer is the half it is at the beginning of, `none` for
`NULL` and for an address elsewhere.
-/

import Mathlib

namespace XR872.I2s

abbrev Block := List (BitVec 8)

inductive Half where
  | first
  | second
deriving DecidableEq, Repr

def Half.other : Half → Half
  | .first => .second
  | .second => .first

@[simp] theorem Half.other_other (half : Half) : half.other.other = half := by
  cases half <;> rfl

theorem Half.other_ne (half : Half) : half.other ≠ half := by
  cases half <;> nofun

/-- `UNDERRUN_THRESHOLD` and `OVERRUN_THRESHOLD`. -/
def threshold : Nat := 3

/-- The fields of `I2S_Private` for one direction, `ready` being the permit of
the semaphore; then the half the DMA works on, if it runs, and what is in the
halves. -/
structure Stream where
  running : Bool
  pointer : Option Half
  dmaPointer : Option Half
  bufSize : Nat
  halfCallCount : Nat
  endCallCount : Nat
  ready : Bool
  isSemaphore : Bool
  isInitiate : Bool
  dma : Option Half
  contents : Half → Block

namespace Stream

def halfSize (s : Stream) : Nat := s.bufSize / 2

/-- Halves that were finished and not answered by a copy. -/
def unanswered (s : Stream) : Nat := s.halfCallCount + s.endCallCount

/-- What the DMA plays next, the half it works on first. -/
def ahead (s : Stream) : List Block :=
  match s.dma with
  | none => []
  | some working => [s.contents working, s.contents working.other]

def halI2sTrigger (s : Stream) (enable : Bool) : Stream :=
  if enable then { s with dma := some .first, running := true }
  else { s with dma := none, running := false }

/-! ### The callbacks -/

def goOn (s : Stream) (working : Half) : Stream :=
  { s with dma := some working }

def withCounts (s : Stream) (halfs ends : Nat) : Stream :=
  { s with halfCallCount := halfs, endCallCount := ends }

def release (s : Stream) : Stream :=
  if s.isSemaphore then { s with isSemaphore := false, ready := true } else s

/-- `I2S_DMA_BUFFER_CHECK_Threshold` is not zero. -/
def overThreshold (s : Stream) : Bool :=
  s.halfCallCount ≥ threshold || s.endCallCount ≥ threshold

def stopped (s : Stream) : Stream :=
  { s.halI2sTrigger false with
    running := false
    pointer := none
    halfCallCount := 0
    endCallCount := 0
    dmaPointer := none }

def checkThreshold (s : Stream) (working : Half) : Stream :=
  if s.overThreshold then s.stopped else { s with dmaPointer := some working }

def i2sDmaHalfCallback (s : Stream) : Stream :=
  (s.withCounts (s.halfCallCount + 1) s.endCallCount).release.checkThreshold
    .second

def i2sDmaEndCallback (s : Stream) : Stream :=
  (s.withCounts s.halfCallCount (s.endCallCount + 1)).release.checkThreshold
    .first

/-- The DMA finishes a half and goes on with the other one. -/
def finish (s : Stream) : Half → Stream
  | .first => (s.goOn .second).i2sDmaHalfCallback
  | .second => (s.goOn .first).i2sDmaEndCallback

/-! ### The calls -/

/-- What is counted is answered, when there is anything, and whether an
underrun or overrun is reported. -/
def answer (s : Stream) : Option (Bool × Stream) :=
  if s.halfCallCount ≠ 0 ∧ s.endCallCount ≠ 0 then
    some (true, s.withCounts 0 0)
  else if s.halfCallCount ≠ 0 then
    some (false, s.withCounts (s.halfCallCount - 1) s.endCallCount)
  else if s.endCallCount ≠ 0 then
    some (false, s.withCounts s.halfCallCount (s.endCallCount - 1))
  else none

/-- The same after the semaphore was waited for. -/
def answerWoken (s : Stream) : Bool × Stream :=
  if s.halfCallCount ≠ 0 ∧ s.endCallCount ≠ 0 then (true, s.withCounts 0 0)
  else (false, s.withCounts (s.halfCallCount - 1) (s.endCallCount - 1))

def target (s : Stream) : Half :=
  if s.dmaPointer = some .first then .second else .first

/-- `HAL_I2S_Open` when memory and channel are there: the buffer was cleared,
or is a reserved one as it was; the pointer of the DMA is left as it is. -/
def halI2sOpen (s : Stream) (bufSize : Nat) (memory : Half → Block)
    (stale : Option Half) : Stream :=
  if s.isInitiate then s
  else
    { s with
      isInitiate := true
      bufSize := bufSize
      halfCallCount := 0
      endCallCount := 0
      contents := memory
      dmaPointer := stale
      ready := false }

def halI2sClose (s : Stream) : Stream :=
  { s.halI2sTrigger false with
    running := false
    isInitiate := false
    bufSize := 0
    pointer := none
    ready := false
    halfCallCount := 0
    endCallCount := 0 }

end Stream

/-! ### Counts and permits -/

/-- Whether the caller waits for the semaphore, or just was woken by it. -/
inductive Stand where
  | away
  | waiting
  | woken
deriving DecidableEq, Repr

namespace Stream

/-- The counts alternate and end with the half finished last; a permit is there
for a caller that waits, and who was given one finds something counted, unless
the DMA was stopped since. -/
structure Sound (s : Stream) (stand : Stand) : Prop where
  below : s.halfCallCount < threshold ∧ s.endCallCount < threshold
  still : s.dma = none → s.unanswered = 0
  afterEnd : s.dma = some .first →
    s.endCallCount = s.halfCallCount ∨ s.endCallCount = s.halfCallCount + 1
  afterHalf : s.dma = some .second →
    s.halfCallCount = s.endCallCount ∨ s.halfCallCount = s.endCallCount + 1
  pointed : ∀ working, s.dma = some working → 0 < s.unanswered →
    s.dmaPointer = some working
  permit : s.ready = true → stand = .waiting
  flag : s.isSemaphore = true → stand = .waiting ∧ s.ready = false
  called : s.ready = true ∨ stand = .woken → s.dma ≠ none → 0 < s.unanswered

variable {s : Stream} {stand : Stand}

theorem release_same (s : Stream) :
    s.release.halfCallCount = s.halfCallCount ∧
      s.release.endCallCount = s.endCallCount ∧ s.release.dma = s.dma ∧
      s.release.contents = s.contents ∧ s.release.running = s.running := by
  unfold release
  split_ifs <;> exact ⟨rfl, rfl, rfl, rfl, rfl⟩

theorem release_idle (s : Stream) : s.release.isSemaphore = false := by
  unfold release
  split_ifs with flag
  · rfl
  · exact Bool.not_eq_true _ |>.mp flag

theorem release_permit (flag : s.isSemaphore = true → stand = .waiting)
    (permit : s.ready = true → stand = .waiting)
    (ready : s.release.ready = true) : stand = .waiting := by
  unfold release at ready
  split_ifs at ready with isFlag
  · exact flag isFlag
  · exact permit ready

theorem stopped_sound (s : Stream) (idle : s.isSemaphore = false)
    (permit : s.ready = true → stand = .waiting) : s.stopped.Sound stand where
  below := ⟨Nat.zero_lt_succ _, Nat.zero_lt_succ _⟩
  still := fun _ => rfl
  afterEnd := nofun
  afterHalf := nofun
  pointed := nofun
  permit := permit
  flag := fun flag => absurd (flag.symm.trans idle) nofun
  called := fun _ runs => absurd rfl runs

theorem not_overThreshold (within : ¬ s.overThreshold = true) :
    s.halfCallCount < threshold ∧ s.endCallCount < threshold := by
  unfold overThreshold at within
  simp only [Bool.or_eq_true, decide_eq_true_eq, not_or, ge_iff_le, not_le]
    at within
  exact within

/-- What a callback does when it has counted: it releases the semaphore, and
goes on with a half or stops the DMA. -/
theorem called_sound {working : Half} (runs : s.dma = some working)
    (some_ : 0 < s.unanswered)
    (afterEnd : s.dma = some .first →
      s.endCallCount = s.halfCallCount ∨ s.endCallCount = s.halfCallCount + 1)
    (afterHalf : s.dma = some .second →
      s.halfCallCount = s.endCallCount ∨ s.halfCallCount = s.endCallCount + 1)
    (flag : s.isSemaphore = true → stand = .waiting)
    (permit : s.ready = true → stand = .waiting) :
    (s.release.checkThreshold working).Sound stand ∧
      (s.release.checkThreshold working).contents = s.contents ∧
      ((s.release.checkThreshold working).dma = none ∨
        (s.release.checkThreshold working).dma = some working ∧
          (s.release.checkThreshold working).unanswered = s.unanswered) := by
  obtain ⟨halfs, ends, dma, contents, _⟩ := release_same s
  have idle := release_idle s
  have given : s.release.ready = true → stand = .waiting :=
    release_permit flag permit
  unfold checkThreshold
  split_ifs with tooMany
  · exact ⟨stopped_sound s.release idle given, contents, .inl rfl⟩
  · have same : s.release.unanswered = s.unanswered :=
      congrArg₂ (· + ·) halfs ends
    refine ⟨?_, contents, .inr ⟨dma.trans runs, same⟩⟩
    rw [← dma, ← halfs, ← ends] at afterEnd afterHalf
    exact
      { below := not_overThreshold tooMany
        still := fun none_ => absurd ((none_.symm.trans dma).trans runs) nofun
        afterEnd := afterEnd
        afterHalf := afterHalf
        pointed := fun _ works _ => (dma.trans runs).symm.trans works
        permit := given
        flag := fun isFlag => absurd (isFlag.symm.trans idle) nofun
        called := fun _ _ => same.symm ▸ some_ }

/-- The DMA finishes a half: one more is counted, or it is stopped. -/
theorem Sound.finish (sound : s.Sound stand) {working : Half}
    (runs : s.dma = some working) :
    (s.finish working).Sound stand ∧
      (s.finish working).contents = s.contents ∧
      ((s.finish working).dma = none ∨
        (s.finish working).dma = some working.other ∧
          (s.finish working).unanswered = s.unanswered + 1) := by
  cases working with
  | first =>
      have counted := sound.afterEnd runs
      have more : ((s.goOn .second).withCounts (s.halfCallCount + 1)
          s.endCallCount).unanswered = s.unanswered + 1 := by
        change s.halfCallCount + 1 + s.endCallCount = _
        unfold unanswered
        omega
      rw [← more]
      apply called_sound
      · rfl
      · exact Nat.lt_of_lt_of_eq (Nat.succ_pos _) more.symm
      · nofun
      · intro _
        change s.halfCallCount + 1 = s.endCallCount ∨
          s.halfCallCount + 1 = s.endCallCount + 1
        omega
      · exact fun flag => (sound.flag flag).1
      · exact sound.permit
  | second =>
      have counted := sound.afterHalf runs
      have more : ((s.goOn .first).withCounts s.halfCallCount
          (s.endCallCount + 1)).unanswered = s.unanswered + 1 := rfl
      rw [← more]
      apply called_sound
      · rfl
      · exact Nat.lt_of_lt_of_eq (Nat.succ_pos _) more.symm
      · intro _
        change s.endCallCount + 1 = s.halfCallCount ∨
          s.endCallCount + 1 = s.halfCallCount + 1
        omega
      · nofun
      · exact fun flag => (sound.flag flag).1
      · exact sound.permit

theorem Sound.start (sound : s.Sound stand) (off : s.dma = none)
    (away : stand = .away) : (s.halI2sTrigger true).Sound stand := by
  have none_ := sound.still off
  have fresh : s.halfCallCount = 0 ∧ s.endCallCount = 0 := by
    unfold unanswered at none_
    omega
  exact
    { below := sound.below
      still := nofun
      afterEnd := fun _ => .inl (fresh.2.trans fresh.1.symm)
      afterHalf := nofun
      pointed := by
        intro _ _ some_
        change 0 < s.unanswered at some_
        omega
      permit := sound.permit
      flag := sound.flag
      called := by
        rintro (ready | woken)
        · exact absurd ((sound.permit ready).symm.trans away) nofun
        · exact absurd (woken.symm.trans away) nofun }

theorem Sound.close (sound : s.Sound stand) (away : stand = .away) :
    s.halI2sClose.Sound stand where
  below := ⟨Nat.zero_lt_succ _, Nat.zero_lt_succ _⟩
  still := fun _ => rfl
  afterEnd := nofun
  afterHalf := nofun
  pointed := nofun
  permit := nofun
  flag := fun flag => absurd ((sound.flag flag).1.symm.trans away) nofun
  called := fun _ runs => absurd rfl runs

theorem Sound.open (sound : s.Sound stand) (away : stand = .away)
    (bufSize : Nat) (memory : Half → Block) (stale : Option Half) :
    (s.halI2sOpen bufSize memory stale).Sound stand := by
  unfold halI2sOpen
  split_ifs
  · exact sound
  · exact
      { below := ⟨Nat.zero_lt_succ _, Nat.zero_lt_succ _⟩
        still := fun _ => rfl
        afterEnd := fun _ => .inl rfl
        afterHalf := fun _ => .inl rfl
        pointed := fun _ _ some_ => absurd some_ (Nat.lt_irrefl 0)
        permit := nofun
        flag := fun flag => absurd ((sound.flag flag).1.symm.trans away) nofun
        called := by
          rintro (ready | woken)
          · cases ready
          · exact absurd (woken.symm.trans away) nofun }

/-- What a copy, a pointer or the flag of the state changes is not looked at. -/
theorem Sound.congr {s' : Stream} (sound : s.Sound stand)
    (halfs : s'.halfCallCount = s.halfCallCount)
    (ends : s'.endCallCount = s.endCallCount) (dma : s'.dma = s.dma)
    (dmaPointer : s'.dmaPointer = s.dmaPointer) (ready : s'.ready = s.ready)
    (isSemaphore : s'.isSemaphore = s.isSemaphore) : s'.Sound stand := by
  have same : s'.unanswered = s.unanswered := congrArg₂ (· + ·) halfs ends
  constructor
  · rw [halfs, ends]
    exact sound.below
  · rw [dma, same]
    exact sound.still
  · rw [dma, halfs, ends]
    exact sound.afterEnd
  · rw [dma, halfs, ends]
    exact sound.afterHalf
  · rw [dma, same, dmaPointer]
    exact sound.pointed
  · rw [ready]
    exact sound.permit
  · rw [isSemaphore, ready]
    exact sound.flag
  · rw [ready, dma, same]
    exact sound.called

theorem Sound.wait (sound : s.Sound stand) (away : stand = .away) :
    { s with isSemaphore := true }.Sound .waiting where
  below := sound.below
  still := sound.still
  afterEnd := sound.afterEnd
  afterHalf := sound.afterHalf
  pointed := sound.pointed
  permit := fun _ => rfl
  flag := by
    intro _
    refine ⟨rfl, Bool.not_eq_true _ |>.mp fun ready => ?_⟩
    exact absurd ((sound.permit ready).symm.trans away) nofun
  called := by
    rintro (ready | woken)
    · exact absurd ((sound.permit ready).symm.trans away) nofun
    · cases woken

theorem Sound.wake (sound : s.Sound .waiting) (ready : s.ready = true) :
    { s with ready := false }.Sound .woken where
  below := sound.below
  still := sound.still
  afterEnd := sound.afterEnd
  afterHalf := sound.afterHalf
  pointed := sound.pointed
  permit := nofun
  flag := by
    intro flag
    exact absurd (ready.symm.trans (sound.flag flag).2) nofun
  called := fun _ => sound.called (.inl ready)

theorem answer_eq_none (s : Stream) : s.answer = none ↔ s.unanswered = 0 := by
  unfold answer unanswered
  split_ifs <;> simp <;> omega

structure Answered (s s' : Stream) (reported : Bool) : Prop where
  halfs : s'.halfCallCount = 0
  ends : s'.endCallCount = 0
  reported : reported = true ↔ 2 ≤ s.unanswered
  running : s'.running = s.running
  dma : s'.dma = s.dma
  dmaPointer : s'.dmaPointer = s.dmaPointer
  contents : s'.contents = s.contents
  ready : s'.ready = s.ready
  isSemaphore : s'.isSemaphore = s.isSemaphore
  bufSize : s'.bufSize = s.bufSize
  isInitiate : s'.isInitiate = s.isInitiate

theorem Sound.counted (sound : s.Sound stand) :
    s.halfCallCount = s.endCallCount ∨
      s.halfCallCount = s.endCallCount + 1 ∨
      s.endCallCount = s.halfCallCount + 1 := by
  cases runs : s.dma with
  | none =>
      have none_ := sound.still runs
      unfold unanswered at none_
      omega
  | some working =>
      cases working with
      | first => exact (sound.afterEnd runs).imp Eq.symm .inr
      | second => exact (sound.afterHalf runs).imp_right .inl

theorem withCounts_answered (halfs ends : Nat) (reported : Bool)
    (none_ : halfs = 0 ∧ ends = 0) (report : reported = true ↔ 2 ≤ s.unanswered) :
    s.Answered (s.withCounts halfs ends) reported where
  halfs := none_.1
  ends := none_.2
  reported := report
  running := rfl
  dma := rfl
  dmaPointer := rfl
  contents := rfl
  ready := rfl
  isSemaphore := rfl
  bufSize := rfl
  isInitiate := rfl

theorem Sound.answerWoken (sound : s.Sound stand) :
    s.Answered s.answerWoken.2 s.answerWoken.1 := by
  have counted := sound.counted
  unfold Stream.answerWoken
  split_ifs with both
  · refine withCounts_answered _ _ _ ⟨rfl, rfl⟩ (iff_of_true rfl ?_)
    unfold unanswered
    omega
  · refine withCounts_answered _ _ _ (by omega) (iff_of_false nofun ?_)
    unfold unanswered
    omega

theorem answer_eq_some (some_ : 0 < s.unanswered) :
    s.answer = some s.answerWoken := by
  unfold unanswered at some_
  unfold answer answerWoken
  by_cases halfs : s.halfCallCount = 0
  · rw [if_neg (by omega), if_neg (by omega), if_pos (by omega),
      if_neg (by omega), halfs]
  · by_cases ends : s.endCallCount = 0
    · rw [if_neg (by omega), if_pos (by omega), if_neg (by omega), ends]
    · rw [if_pos (by omega), if_pos (by omega)]

/-- After an answer the caller is away again, and no permit is left. -/
theorem Sound.answered {s' : Stream} {reported : Bool}
    (sound : s.Sound stand) (left : stand ≠ .waiting)
    (answered : s.Answered s' reported) : s'.Sound .away := by
  have none_ : s'.unanswered = 0 :=
    congrArg₂ (· + ·) answered.halfs answered.ends
  have noPermit : s'.ready ≠ true := by
    rw [answered.ready]
    exact fun ready => left (sound.permit ready)
  exact
    { below := by
        rw [answered.halfs, answered.ends]
        exact ⟨Nat.zero_lt_succ _, Nat.zero_lt_succ _⟩
      still := fun _ => none_
      afterEnd := fun _ => .inl (answered.ends.trans answered.halfs.symm)
      afterHalf := fun _ => .inl (answered.halfs.trans answered.ends.symm)
      pointed := fun _ _ some_ => absurd none_ (Nat.pos_iff_ne_zero.mp some_)
      permit := fun ready => absurd ready noPermit
      flag := by
        rw [answered.isSemaphore]
        exact fun flag => absurd (sound.flag flag).1 left
      called := by
        rintro (ready | woken)
        · exact absurd ready noPermit
        · cases woken }

theorem Sound.target {s' : Stream} {reported : Bool} {working : Half}
    (sound : s.Sound stand) (some_ : 0 < s.unanswered)
    (answered : s.Answered s' reported) (runs : s'.dma = some working) :
    s'.target = working.other := by
  have pointed := sound.pointed working (answered.dma.symm.trans runs) some_
  unfold Stream.target
  rw [answered.dmaPointer, pointed]
  cases working <;> rfl

theorem finish_running (s : Stream) (working : Half) :
    (s.finish working).dma = none ∨
      (s.finish working).running = s.running := by
  have released (s : Stream) (working : Half) :
      (s.release.checkThreshold working).dma = none ∨
        (s.release.checkThreshold working).running = s.running := by
    obtain ⟨_, _, _, _, running⟩ := release_same s
    unfold checkThreshold
    split_ifs
    · exact .inl rfl
    · exact .inr running
  cases working with
  | first => exact released ..
  | second => exact released ..

/-- A callback leaves the size alone, and forgets both pointers when it stops
the DMA. -/
theorem finish_pointers (s : Stream) (working : Half) :
    (s.finish working).bufSize = s.bufSize ∧
      (s.finish working).isInitiate = s.isInitiate ∧
      ((s.finish working).dma = none →
        (s.finish working).pointer = none ∧
          (s.finish working).dmaPointer = none) := by
  have released (s : Stream) (working : Half) (runs : s.dma ≠ none) :
      (s.release.checkThreshold working).bufSize = s.bufSize ∧
        (s.release.checkThreshold working).isInitiate = s.isInitiate ∧
        ((s.release.checkThreshold working).dma = none →
          (s.release.checkThreshold working).pointer = none ∧
            (s.release.checkThreshold working).dmaPointer = none) := by
    have same := (release_same s).2.2.1
    have sizes : s.release.bufSize = s.bufSize ∧
        s.release.isInitiate = s.isInitiate := by
      unfold release
      split_ifs <;> exact ⟨rfl, rfl⟩
    unfold checkThreshold
    split_ifs
    · exact ⟨sizes.1, sizes.2, fun _ => ⟨rfl, rfl⟩⟩
    · exact ⟨sizes.1, sizes.2, fun off => absurd (same.symm.trans off) runs⟩
  cases working with
  | first => exact released _ _ nofun
  | second => exact released _ _ nofun

end Stream

end XR872.I2s
