/-
`HAL_I2S_Read_DMA`, interrupted by the DMA.

A stretch begins when the DMA is started, and again at a copy that reports an
overrun; it ends when the DMA is stopped.
-/

import XR872.I2s.Stream

namespace XR872.I2s

/-- Places of the reader, with the size that is left and the size it has read:
at the head of its loop; where it found the DMA off; before it disables
interrupts; at the semaphore. -/
inductive ReaderPlace where
  | idle
  | loop (size toRead : Nat)
  | trigger (size toRead : Nat)
  | disable (size toRead : Nat)
  | waiting (size toRead : Nat)
  | woken (size toRead : Nat)
deriving DecidableEq, Repr

namespace ReaderPlace

def stand : ReaderPlace → Stand
  | .waiting .. => .waiting
  | .woken .. => .woken
  | _ => .away

/-- The reader found the DMA off and did not start it yet. -/
def Starts : ReaderPlace → Prop
  | .trigger .. => True
  | _ => False

end ReaderPlace

/-- What was recorded and what was delivered in a stretch. -/
structure RecordStretch where
  recorded : List Block
  delivered : List Block
deriving DecidableEq, Repr

/-- A copy: its half, the half the DMA worked on when it started, the stretch
with it, and what the callers have then. -/
structure RecordCopy where
  half : Half
  working : Option Half
  stretch : Option RecordStretch
  buf : Block
deriving DecidableEq, Repr

/-- `buf` is what the calls have put into their callers' buffers. -/
structure Recording where
  stream : Stream
  place : ReaderPlace
  buf : Block
  returned : Option Int
  stretch : Option RecordStretch
  copies : List RecordCopy

namespace Recording

def moveTo (r : Recording) (place : ReaderPlace) : Recording :=
  { r with place := place }

/-- The block comes from the half that the DMA does not point to. -/
def answerTo (r : Recording) (answer : Bool × Stream) (size toRead : Nat) :
    Recording :=
  let readSize := r.stream.halfSize
  let half := answer.2.target
  let block := answer.2.contents half
  let stretch := r.stretch.map fun stretch =>
    if answer.1 then { recorded := [], delivered := [] }
    else { stretch with delivered := stretch.delivered ++ [block] }
  { r with
    stream := answer.2
    place := .loop (size - readSize) (toRead + readSize)
    buf := r.buf ++ block
    stretch := stretch
    copies :=
      { half := half
        working := answer.2.dma
        stretch := stretch
        buf := r.buf ++ block } :: r.copies }

/-- A call, until it comes to its loop; whether the caller has a buffer. -/
def halI2sReadDma (r : Recording) (buf : Bool) (size : Nat) : Recording :=
  if buf = false ∨ size = 0 then { r with returned := some (-4) }
  else if r.stream.halfSize = 0 then { r with returned := some (-1) }
  else if size < r.stream.halfSize then { r with returned := some (-1) }
  else r.moveTo (.loop size 0)

def readerStep (r : Recording) : Recording :=
  match r.place with
  | .idle => r
  | .loop size toRead =>
      if size < r.stream.halfSize then
        { r.moveTo .idle with returned := some toRead }
      else if r.stream.running = false then r.moveTo (.trigger size toRead)
      else r.moveTo (.disable size toRead)
  | .trigger size toRead =>
      { r with
        stream := r.stream.halI2sTrigger true
        place := .loop size toRead
        stretch := some { recorded := [], delivered := [] } }
  | .disable size toRead =>
      match r.stream.answer with
      | some answer => r.answerTo answer size toRead
      | none =>
          { r with
            stream := { r.stream with isSemaphore := true }
            place := .waiting size toRead }
  | .waiting size toRead =>
      if r.stream.ready then
        { r with
          stream := { r.stream with ready := false }
          place := .woken size toRead }
      else r
  | .woken size toRead => r.answerTo r.stream.answerWoken size toRead

/-- The DMA finishes the half it works on, with what it has recorded. -/
def dmaStep (r : Recording) (block : Block) : Recording :=
  match r.stream.dma with
  | none => r
  | some working =>
      let stream := { r.stream with
        contents :=
          Function.update r.stream.contents working block }.finish working
      { r with
        stream := stream
        stretch :=
          match stream.dma with
          | none => none
          | some _ => r.stretch.map fun stretch =>
              { stretch with recorded := stretch.recorded ++ [block] } }

end Recording

inductive RecordingEvent where
  | open_ (bufSize : Nat) (memory : Half → Block) (stale : Option Half)
  | close
  | read (buf : Bool) (size : Nat)
  | reader
  | dma (block : Block)

/-- The reader makes one call after the other. -/
def recordingStep (r : Recording) : RecordingEvent → Recording
  | .open_ bufSize memory stale =>
      if r.place = .idle then
        { r with
          stream := r.stream.halI2sOpen bufSize memory stale
          stretch := if r.stream.isInitiate then r.stretch else none }
      else r
  | .close =>
      if r.place = .idle then
        { r with stream := r.stream.halI2sClose, stretch := none }
      else r
  | .read buf size => if r.place = .idle then r.halI2sReadDma buf size else r
  | .reader => r.readerStep
  | .dma block => r.dmaStep block

/-! ### What is promised -/

/-- A copy keeps off the half the DMA works on, all that was recorded in its
stretch is delivered with it, and what was delivered is what the callers got
last. -/
structure RecordCopy.Right (copy : RecordCopy) : Prop where
  apart : copy.working ≠ some copy.half
  inOrder : ∀ stretch, copy.stretch = some stretch →
    stretch.delivered = stretch.recorded
  inBuf : ∀ stretch, copy.stretch = some stretch →
    stretch.delivered.flatten <:+ copy.buf

namespace Recording

structure Promised (r : Recording) : Prop where
  below : r.stream.halfCallCount < threshold ∧
    r.stream.endCallCount < threshold
  noPermit : r.place.stand ≠ .waiting → r.stream.ready = false
  copies : ∀ copy ∈ r.copies, copy.Right

/-- What of a stretch is not delivered, as long as not more than one half waits
for an answer. -/
def Continues (s : Stream) (stretch : RecordStretch) : Prop :=
  (s.unanswered = 0 → stretch.recorded = stretch.delivered) ∧
    (s.unanswered = 1 → ∀ working, s.dma = some working →
      stretch.recorded = stretch.delivered ++ [s.contents working.other])

structure Sound (r : Recording) : Prop where
  stream : r.stream.Sound r.place.stand
  off : r.stream.running = false → r.stream.dma = none
  starts : r.place.Starts → r.stream.dma = none
  stretch : ∀ stretch, r.stretch = some stretch →
    r.stream.dma ≠ none ∧ Continues r.stream stretch
  inBuf : ∀ stretch, r.stretch = some stretch →
    stretch.delivered.flatten <:+ r.buf
  copies : ∀ copy ∈ r.copies, copy.Right

variable {r : Recording}

theorem Sound.promised (sound : r.Sound) : r.Promised where
  below := sound.stream.below
  noPermit := by
    intro away
    by_contra ready
    exact away (sound.stream.permit (Bool.not_eq_false _ |>.mp ready))
  copies := sound.copies

theorem Sound.stretch_none (sound : r.Sound) (off : r.stream.dma = none) :
    r.stretch = none := by
  cases stretch : r.stretch with
  | none => rfl
  | some stretch' => exact absurd off (sound.stretch stretch' stretch).1

/-! ### One step -/

theorem Continues.answered {stretch : RecordStretch} {s' : Stream}
    {reported : Bool} {working : Half} (continues : Continues r.stream stretch)
    (answered : r.stream.Answered s' reported) (some_ : 0 < r.stream.unanswered)
    (runs : s'.dma = some working) (notReported : reported = false) :
    stretch.delivered ++ [s'.contents working.other] = stretch.recorded := by
  have one : r.stream.unanswered = 1 := by
    have notTwo : ¬ 2 ≤ r.stream.unanswered := by
      rw [← answered.reported, notReported]
      nofun
    omega
  rw [continues.2 one working (answered.dma.symm.trans runs),
    answered.contents]

/-- What is copied is delivered last, and the callers have it last. -/
theorem Sound.inBuf_answerTo (sound : r.Sound) (answer : Bool × Stream)
    (size toRead : Nat) (stretch : RecordStretch)
    (isStretch : (r.answerTo answer size toRead).stretch = some stretch) :
    stretch.delivered.flatten <:+ (r.answerTo answer size toRead).buf := by
  obtain ⟨old, isOld, rfl⟩ := Option.map_eq_some_iff.mp isStretch
  obtain ⟨before, buf⟩ := sound.inBuf old isOld
  change _ <:+ r.buf ++ answer.2.contents answer.2.target
  split_ifs with reported
  · exact List.nil_suffix
  · dsimp only
    rw [← buf, List.flatten_append, List.flatten_singleton, List.append_assoc]
    exact List.suffix_append ..

/-- A copy that answers what was counted; nothing need be when the DMA was
stopped. -/
theorem Sound.answerTo (sound : r.Sound) {answer : Bool × Stream}
    (left : r.place.stand ≠ .waiting)
    (answered : r.stream.Answered answer.2 answer.1)
    (some_ : r.stream.dma ≠ none → 0 < r.stream.unanswered)
    (size toRead : Nat) : (r.answerTo answer size toRead).Sound := by
  obtain ⟨reported, s'⟩ := answer
  dsimp only at answered
  have next : s'.Sound .away := sound.stream.answered left answered
  have fresh : s'.unanswered = 0 :=
    congrArg₂ (· + ·) answered.halfs answered.ends
  cases runs : s'.dma with
  | none =>
      have noStretch := sound.stretch_none (answered.dma.symm.trans runs)
      constructor
      · exact next
      · exact fun _ => runs
      · exact False.elim
      · intro stretch isStretch
        unfold Recording.answerTo at isStretch
        rw [noStretch] at isStretch
        cases isStretch
      · exact sound.inBuf_answerTo _ size toRead
      · intro copy isCopy
        rcases List.mem_cons.mp isCopy with rfl | before
        · refine ⟨?_, ?_, sound.inBuf_answerTo _ size toRead⟩
          · intro same
            cases runs.symm.trans same
          · intro stretch isStretch
            dsimp only at isStretch
            rw [noStretch] at isStretch
            cases isStretch
        · exact sound.copies copy before
  | some working =>
      have counted : 0 < r.stream.unanswered := by
        refine some_ fun off => ?_
        cases (answered.dma.symm.trans runs).symm.trans off
      have target : s'.target = working.other :=
        sound.stream.target counted answered runs
      have inOrder : ∀ stretch,
          (r.answerTo (reported, s') size toRead).stretch = some stretch →
          stretch.delivered = stretch.recorded := by
        intro stretch isStretch
        obtain ⟨old, isOld, rfl⟩ := Option.map_eq_some_iff.mp isStretch
        cases isReported : reported with
        | true => rfl
        | false =>
            dsimp only
            rw [target]
            exact (sound.stretch old isOld).2.answered answered counted runs
              isReported
      constructor
      · exact next
      · intro still
        exact answered.dma.trans (sound.off (answered.running.symm.trans still))
      · exact False.elim
      · intro stretch isStretch
        refine ⟨?_, fun _ => (inOrder stretch isStretch).symm, ?_⟩
        · exact fun off => absurd (off.symm.trans runs) nofun
        · exact fun one => absurd (fresh.symm.trans one) nofun
      · exact sound.inBuf_answerTo _ size toRead
      · intro copy isCopy
        rcases List.mem_cons.mp isCopy with rfl | before
        · refine ⟨?_, inOrder, sound.inBuf_answerTo _ size toRead⟩
          intro same
          dsimp only at same
          rw [runs, target] at same
          exact working.other_ne (Option.some.inj same).symm
        · exact sound.copies copy before

theorem Sound.moveTo (sound : r.Sound) (place : ReaderPlace)
    (stand : place.stand = r.place.stand)
    (starts : place.Starts → r.stream.dma = none) : (r.moveTo place).Sound where
  stream := by
    change r.stream.Sound place.stand
    rw [stand]
    exact sound.stream
  off := sound.off
  starts := starts
  stretch := sound.stretch
  inBuf := sound.inBuf
  copies := sound.copies

theorem Sound.returns (sound : r.Sound) (value : Int) :
    { r with returned := some value }.Sound where
  stream := sound.stream
  off := sound.off
  starts := sound.starts
  stretch := sound.stretch
  inBuf := sound.inBuf
  copies := sound.copies

theorem Sound.read (sound : r.Sound) (idle : r.place = .idle) (buf : Bool)
    (size : Nat) : (r.halI2sReadDma buf size).Sound := by
  unfold halI2sReadDma
  split_ifs
  · exact sound.returns _
  · exact sound.returns _
  · exact sound.returns _
  · refine sound.moveTo _ ?_ False.elim
    rw [idle]
    rfl

theorem Sound.keeps (sound : r.Sound) (place : ReaderPlace) {s' : Stream}
    (stream : s'.Sound place.stand) (running : s'.running = r.stream.running)
    (halfs : s'.halfCallCount = r.stream.halfCallCount)
    (ends : s'.endCallCount = r.stream.endCallCount)
    (dma : s'.dma = r.stream.dma) (contents : s'.contents = r.stream.contents)
    (starts : ¬ place.Starts) :
    { r with stream := s', place := place }.Sound where
  stream := stream
  off := fun still => dma.trans (sound.off (running.symm.trans still))
  starts := fun isStart => absurd isStart starts
  stretch := by
    intro stretch isStretch
    obtain ⟨runs, continues⟩ := sound.stretch stretch isStretch
    have same : s'.unanswered = r.stream.unanswered :=
      congrArg₂ (· + ·) halfs ends
    refine ⟨fun none_ => runs (dma.symm.trans none_), ?_⟩
    unfold Continues
    dsimp only
    rw [same, dma, contents]
    exact continues
  inBuf := sound.inBuf
  copies := sound.copies

theorem Sound.readerStep (sound : r.Sound) : r.readerStep.Sound := by
  cases place : r.place with
  | idle =>
      unfold Recording.readerStep
      rw [place]
      exact sound
  | loop size toRead =>
      have away : r.place.stand = .away := by
        rw [place]
        rfl
      unfold Recording.readerStep
      rw [place]
      dsimp only
      split_ifs with short still
      · exact (sound.moveTo .idle away.symm False.elim).returns _
      · exact sound.moveTo _ away.symm fun _ => sound.off still
      · exact sound.moveTo _ away.symm False.elim
  | trigger size toRead =>
      have off : r.stream.dma = none := sound.starts (by rw [place]; trivial)
      have away : r.place.stand = .away := by
        rw [place]
        rfl
      have next := sound.stream.start off away
      have fresh : (r.stream.halI2sTrigger true).unanswered = 0 :=
        sound.stream.still off
      unfold Recording.readerStep
      rw [place]
      rw [away] at next
      constructor
      · exact next
      · nofun
      · exact False.elim
      · rintro _ ⟨⟩
        refine ⟨nofun, fun _ => rfl, ?_⟩
        exact fun one => absurd (fresh.symm.trans one) nofun
      · rintro _ ⟨⟩
        exact List.nil_suffix
      · exact sound.copies
  | disable size toRead =>
      have away : r.place.stand = .away := by
        rw [place]
        rfl
      unfold Recording.readerStep
      rw [place]
      dsimp only
      cases answer : r.stream.answer with
      | none =>
          exact sound.keeps (.waiting _ _) (sound.stream.wait away) rfl rfl rfl
            rfl rfl id
      | some answer' =>
          have some_ : 0 < r.stream.unanswered := by
            rw [Nat.pos_iff_ne_zero]
            intro none_
            rw [r.stream.answer_eq_none.mpr none_] at answer
            cases answer
          obtain rfl :=
            Option.some.inj ((Stream.answer_eq_some some_).symm.trans answer)
          refine sound.answerTo ?_ sound.stream.answerWoken (fun _ => some_) _ _
          rw [away]
          nofun
  | waiting size toRead =>
      have stream := sound.stream
      unfold Recording.readerStep
      rw [place] at stream ⊢
      dsimp only
      split_ifs with ready
      · exact sound.keeps (.woken _ _) (stream.wake ready) rfl rfl rfl rfl rfl id
      · exact sound
  | woken size toRead =>
      have stands : r.place.stand = .woken := by
        rw [place]
        rfl
      unfold Recording.readerStep
      rw [place]
      refine sound.answerTo ?_ sound.stream.answerWoken ?_ _ _
      · rw [stands]
        nofun
      · exact sound.stream.called (.inr stands)

theorem Continues.finished {stretch : RecordStretch} {working : Half}
    (continues : Continues r.stream stretch) {s' : Stream} {block : Block}
    (contents : s'.contents = Function.update r.stream.contents working block)
    (goes : s'.dma = some working.other)
    (counted : s'.unanswered = r.stream.unanswered + 1) :
    Continues s' { stretch with recorded := stretch.recorded ++ [block] } := by
  constructor
  · intro none_
    omega
  · intro one working' runs'
    obtain rfl := Option.some.inj (goes.symm.trans runs')
    rw [contents, continues.1 (by omega), Half.other_other,
      Function.update_self]

theorem Sound.dmaStep (sound : r.Sound) (block : Block) :
    (r.dmaStep block).Sound := by
  unfold Recording.dmaStep
  cases runs : r.stream.dma with
  | none => exact sound
  | some working =>
      have recorded : { r.stream with
          contents := Function.update r.stream.contents working block }.Sound
            r.place.stand := sound.stream.congr rfl rfl rfl rfl rfl rfl
      obtain ⟨stream, contents, next⟩ := recorded.finish runs
      have running := Stream.finish_running { r.stream with
        contents := Function.update r.stream.contents working block } working
      dsimp only at running ⊢
      generalize { r.stream with
        contents := Function.update r.stream.contents working block }.finish
          working = s' at stream contents next running ⊢
      constructor
      · exact stream
      · intro still
        refine running.resolve_right fun running => ?_
        exact absurd (sound.off (running.symm.trans still)) (by rw [runs]; nofun)
      · intro isStart
        exact absurd (sound.starts isStart) (by rw [runs]; nofun)
      · intro stretch isStretch
        rcases next with stops | ⟨goes, counted⟩
        · dsimp only at isStretch
          rw [stops] at isStretch
          cases isStretch
        · dsimp only at isStretch
          rw [goes] at isStretch
          obtain ⟨old, isOld, rfl⟩ := Option.map_eq_some_iff.mp isStretch
          refine ⟨by rw [goes]; nofun, ?_⟩
          exact (sound.stretch old isOld).2.finished contents goes counted
      · intro stretch isStretch
        dsimp only at isStretch
        split at isStretch
        · cases isStretch
        · obtain ⟨old, isOld, rfl⟩ := Option.map_eq_some_iff.mp isStretch
          exact sound.inBuf old isOld
      · exact sound.copies

theorem Sound.openWith (sound : r.Sound) (idle : r.place = .idle) (bufSize : Nat)
    (memory : Half → Block) (stale : Option Half) :
    { r with
      stream := r.stream.halI2sOpen bufSize memory stale
      stretch := if r.stream.isInitiate then r.stretch else none }.Sound := by
  have away : r.place.stand = .away := by
    rw [idle]
    rfl
  have next := sound.stream.open away bufSize memory stale
  cases initiated : r.stream.isInitiate with
  | true =>
      have same : r.stream.halI2sOpen bufSize memory stale = r.stream :=
        if_pos initiated
      rw [same]
      exact sound
  | false =>
      have other : r.stream.halI2sOpen bufSize memory stale =
          { r.stream with
            isInitiate := true
            bufSize := bufSize
            halfCallCount := 0
            endCallCount := 0
            contents := memory
            dmaPointer := stale
            ready := false } := if_neg (by rw [initiated]; nofun)
      rw [other] at next ⊢
      constructor
      · exact next
      · exact sound.off
      · exact sound.starts
      · nofun
      · nofun
      · exact sound.copies

theorem Sound.close (sound : r.Sound) (idle : r.place = .idle) :
    { r with stream := r.stream.halI2sClose, stretch := none }.Sound where
  stream := sound.stream.close (by rw [idle]; rfl)
  off := fun _ => rfl
  starts := fun _ => rfl
  stretch := nofun
  inBuf := nofun
  copies := sound.copies

theorem Sound.recordingStep (sound : r.Sound) (event : RecordingEvent) :
    (recordingStep r event).Sound := by
  cases event with
  | open_ bufSize memory stale =>
      unfold I2s.recordingStep
      dsimp only
      by_cases idle : r.place = .idle
      · rw [if_pos idle]
        exact sound.openWith idle bufSize memory stale
      · rw [if_neg idle]
        exact sound
  | close =>
      unfold I2s.recordingStep
      dsimp only
      by_cases idle : r.place = .idle
      · rw [if_pos idle]
        exact sound.close idle
      · rw [if_neg idle]
        exact sound
  | read buf size =>
      unfold I2s.recordingStep
      dsimp only
      by_cases idle : r.place = .idle
      · rw [if_pos idle]
        exact sound.read idle buf size
      · rw [if_neg idle]
        exact sound
  | reader => exact sound.readerStep
  | dma block => exact sound.dmaStep block

end Recording

end XR872.I2s
