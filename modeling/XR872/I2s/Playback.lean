/-
`HAL_I2S_Write_DMA`, interrupted by the DMA.

The writer goes from one place of its code to the next; what it does with
interrupts disabled is one step. A stretch begins when the DMA is started, and
again at a copy that reports an underrun; it ends when the DMA is stopped.
-/

import XR872.I2s.Stream
import XR872.Library.Blocks

namespace XR872.I2s

/-- Places of the writer, with the data that is left and the size it has
written: at the head of its loop; where it found the DMA off, then before the
trigger and behind it; before it disables interrupts; at the semaphore. -/
inductive WriterPlace where
  | idle
  | loop (data : Block) (toWrite : Nat)
  | fill (data : Block) (toWrite : Nat)
  | trigger (data : Block) (toWrite : Nat)
  | running (data : Block) (toWrite : Nat)
  | disable (data : Block) (toWrite : Nat)
  | waiting (data : Block) (toWrite : Nat)
  | woken (data : Block) (toWrite : Nat)
deriving DecidableEq, Repr

namespace WriterPlace

def stand : WriterPlace → Stand
  | .waiting .. => .waiting
  | .woken .. => .woken
  | _ => .away

/-- The writer found the DMA off and did not start it yet. -/
def Starts : WriterPlace → Prop
  | .fill .. | .trigger .. => True
  | _ => False

end WriterPlace

/-- What a stretch is to play, the blocks of both halves at its beginning and
then each block copied; what was played of it; and whether it began again at a
reported underrun. -/
structure PlayStretch where
  line : List Block
  played : List Block
  reported : Bool
deriving DecidableEq, Repr

/-- A copy: its half, the half the DMA worked on when it started, the stretch
it is in, what the DMA plays next, and all blocks copied so far. -/
structure PlayCopy where
  half : Half
  working : Option Half
  stretch : Option PlayStretch
  ahead : List Block
  written : List Block
deriving DecidableEq, Repr

/-- `given` has the whole blocks of the data of the calls, `written` the blocks
that were copied to the buffer. -/
structure Playback where
  stream : Stream
  place : WriterPlace
  returned : Option Int
  given : List Block
  written : List Block
  stretch : Option PlayStretch
  copies : List PlayCopy

namespace Playback

/-- The copy of one block, and the place behind it. -/
def copyTo (p : Playback) (stream : Stream) (half : Half) (block : Block)
    (reported : Bool) (place : WriterPlace) : Playback :=
  let after :=
    { stream with contents := Function.update stream.contents half block }
  let stretch := p.stretch.map fun stretch =>
    if reported then { line := after.ahead, played := [], reported := true }
    else { stretch with line := stretch.line ++ [block] }
  { p with
    stream := after
    place := place
    written := p.written ++ [block]
    stretch := stretch
    copies :=
      { half := half
        working := stream.dma
        stretch := stretch
        ahead := after.ahead
        written := p.written ++ [block] } :: p.copies }

def moveTo (p : Playback) (place : WriterPlace) : Playback :=
  { p with place := place }

/-- The block goes to the half that the DMA does not point to. -/
def answerTo (p : Playback) (answer : Bool × Stream) (data : Block)
    (toWrite : Nat) : Playback :=
  let size := p.stream.halfSize
  let half := answer.2.target
  let stream := { answer.2 with pointer := some half.other }
  p.copyTo stream half (data.take size) answer.1
    (.loop (data.drop size) (toWrite + size))

/-- A call, until it comes to its loop. -/
def halI2sWriteDma (p : Playback) (buf : Option Block) : Playback :=
  match buf with
  | none => { p with returned := some (-4) }
  | some data =>
      if data.length = 0 then { p with returned := some (-4) }
      else if p.stream.halfSize = 0 then { p with returned := some (-1) }
      else if data.length < p.stream.halfSize then
        { p with returned := some (-1) }
      else
        { p.moveTo (.loop data 0) with
          given := p.given ++ Blocks.full p.stream.halfSize data }

def writerStep (p : Playback) : Playback :=
  match p.place with
  | .idle => p
  | .loop data toWrite =>
      if data.length < p.stream.halfSize then
        { p.moveTo .idle with returned := some toWrite }
      else if p.stream.running = false then p.moveTo (.fill data toWrite)
      else p.moveTo (.disable data toWrite)
  | .fill data toWrite =>
      let half := p.stream.pointer.getD .first
      p.copyTo { p.stream with pointer := some half } half
        (data.take p.stream.halfSize) false (.trigger data toWrite)
  | .trigger data toWrite =>
      let stream := p.stream.halI2sTrigger true
      { p with
        stream := stream
        place := .running data toWrite
        stretch :=
          some { line := stream.ahead, played := [], reported := false } }
  | .running data toWrite =>
      { p with
        stream := { p.stream with running := true }
        place := .loop (data.drop p.stream.halfSize)
          (toWrite + p.stream.halfSize) }
  | .disable data toWrite =>
      match p.stream.answer with
      | some answer => p.answerTo answer data toWrite
      | none =>
          { p with
            stream := { p.stream with isSemaphore := true }
            place := .waiting data toWrite }
  | .waiting data toWrite =>
      if p.stream.ready then
        { p with
          stream := { p.stream with ready := false }
          place := .woken data toWrite }
      else p
  | .woken data toWrite => p.answerTo p.stream.answerWoken data toWrite

/-- The DMA finishes the half it works on, which it has played. -/
def dmaStep (p : Playback) : Playback :=
  match p.stream.dma with
  | none => p
  | some working =>
      let stream := p.stream.finish working
      { p with
        stream := stream
        stretch :=
          match stream.dma with
          | none => none
          | some _ => p.stretch.map fun stretch =>
              { stretch with
                played := stretch.played ++ [p.stream.contents working] } }

end Playback

inductive PlaybackEvent where
  | open_ (bufSize : Nat) (memory : Half → Block) (stale : Option Half)
  | close
  | write (buf : Option Block)
  | writer
  | dma

/-- The writer makes one call after the other. -/
def playbackStep (p : Playback) : PlaybackEvent → Playback
  | .open_ bufSize memory stale =>
      if p.place = .idle then
        { p with
          stream := p.stream.halI2sOpen bufSize memory stale
          stretch := if p.stream.isInitiate then p.stretch else none }
      else p
  | .close =>
      if p.place = .idle then
        { p with stream := p.stream.halI2sClose, stretch := none }
      else p
  | .write buf => if p.place = .idle then p.halI2sWriteDma buf else p
  | .writer => p.writerStep
  | .dma => p.dmaStep

/-! ### What is promised -/

/-- A copy keeps off the half the DMA works on, and what was played of its
stretch is all but the two blocks that the DMA plays next. -/
structure PlayCopy.Right (copy : PlayCopy) : Prop where
  apart : copy.working ≠ some copy.half
  inOrder : ∀ stretch, copy.stretch = some stretch →
    stretch.line = stretch.played ++ copy.ahead

/-- The blocks of a stretch are those written last. Of the two halves it begins
with, the second may have nothing of the caller's when the DMA is started, and
the first is played once more behind an underrun. -/
def PlayStretch.Tells (stretch : PlayStretch) (written : List Block) : Prop :=
  ∃ first second later, stretch.line = first :: second :: later ∧
    if stretch.reported then second :: later <:+ written
    else first :: later <:+ written ∨ first :: second :: later <:+ written

namespace Playback

/-- The blocks written are those the callers gave, in their order, and all of
them when a call has returned. -/
structure Promised (p : Playback) : Prop where
  below : p.stream.halfCallCount < threshold ∧
    p.stream.endCallCount < threshold
  noPermit : p.place.stand ≠ .waiting → p.stream.ready = false
  copies : ∀ copy ∈ p.copies, copy.Right
  handed : p.written <+: p.given
  returned : p.place = .idle → p.written = p.given
  tells : ∀ copy ∈ p.copies, ∀ stretch, copy.stretch = some stretch →
    stretch.Tells copy.written

/-- What is left of a stretch to play, as long as not more than two halves wait
for an answer. -/
def Continues (s : Stream) (stretch : PlayStretch) : Prop :=
  (s.unanswered = 0 → stretch.line = stretch.played ++ s.ahead) ∧
    (s.unanswered = 1 → ∀ working, s.dma = some working →
      stretch.line = stretch.played ++ [s.contents working])

structure Sound (p : Playback) : Prop where
  stream : p.stream.Sound p.place.stand
  off : p.stream.running = false → p.stream.dma = none
  starts : p.place.Starts → p.stream.dma = none
  stretch : ∀ stretch, p.stretch = some stretch →
    p.stream.dma ≠ none ∧ Continues p.stream stretch
  copies : ∀ copy ∈ p.copies, copy.Right

variable {p : Playback}

theorem Sound.stretch_none (sound : p.Sound) (off : p.stream.dma = none) :
    p.stretch = none := by
  cases stretch : p.stretch with
  | none => rfl
  | some stretch' => exact absurd off (sound.stretch stretch' stretch).1

/-! ### One step -/

/-- The contents of the halves are not what the callbacks look at. -/
theorem copyTo_stream {s : Stream} {place : WriterPlace}
    (sound : s.Sound place.stand) (p : Playback) (half : Half) (block : Block)
    (reported : Bool) :
    (p.copyTo s half block reported place).stream.Sound place.stand :=
  sound.congr rfl rfl rfl rfl rfl rfl

theorem ahead_update (s : Stream) {working : Half}
    (runs : s.dma = some working) (block : Block) :
    { s with contents := Function.update s.contents working.other block }.ahead =
      [s.contents working, block] := by
  unfold Stream.ahead
  dsimp only
  rw [runs]
  dsimp only
  rw [Function.update_of_ne working.other_ne.symm, Function.update_self]

theorem Sound.copyOff (sound : p.Sound) (off : p.stream.dma = none)
    (half : Half) (block : Block) (place : WriterPlace)
    (away : place.stand = p.place.stand) :
    (p.copyTo { p.stream with pointer := some half } half block false
      place).Sound where
  stream := by
    refine copyTo_stream ?_ p half block false
    rw [away]
    exact sound.stream.congr rfl rfl rfl rfl rfl rfl
  off := sound.off
  starts := fun _ => off
  stretch := by
    intro stretch isStretch
    unfold copyTo at isStretch
    rw [sound.stretch_none off] at isStretch
    cases isStretch
  copies := by
    intro copy isCopy
    rcases List.mem_cons.mp isCopy with rfl | before
    · refine ⟨?_, ?_⟩
      · intro same
        cases off.symm.trans same
      · intro stretch isStretch
        dsimp only at isStretch
        rw [sound.stretch_none off] at isStretch
        cases isStretch
    · exact sound.copies copy before

theorem Continues.answered {stretch : PlayStretch} {s' : Stream}
    {reported : Bool} {working : Half} (continues : Continues p.stream stretch)
    (answered : p.stream.Answered s' reported) (some_ : 0 < p.stream.unanswered)
    (runs : s'.dma = some working) (block : Block) (notReported : reported = false) :
    stretch.line ++ [block] =
      stretch.played ++ [s'.contents working, block] := by
  have one : p.stream.unanswered = 1 := by
    have notTwo : ¬ 2 ≤ p.stream.unanswered := by
      rw [← answered.reported, notReported]
      nofun
    omega
  rw [continues.2 one working (answered.dma.symm.trans runs),
    answered.contents, List.append_assoc]
  rfl

/-- A copy that answers what was counted; nothing need be when the DMA was
stopped. -/
theorem Sound.answerTo (sound : p.Sound) {answer : Bool × Stream}
    (left : p.place.stand ≠ .waiting)
    (answered : p.stream.Answered answer.2 answer.1)
    (some_ : p.stream.dma ≠ none → 0 < p.stream.unanswered) (data : Block)
    (toWrite : Nat) : (p.answerTo answer data toWrite).Sound := by
  obtain ⟨reported, s'⟩ := answer
  dsimp only at answered
  have next : s'.Sound .away := sound.stream.answered left answered
  have fresh : s'.unanswered = 0 :=
    congrArg₂ (· + ·) answered.halfs answered.ends
  cases runs : s'.dma with
  | none =>
      have off : p.stream.dma = none := answered.dma.symm.trans runs
      have noStretch := sound.stretch_none off
      constructor
      · exact next.congr rfl rfl rfl rfl rfl rfl
      · exact fun _ => runs
      · exact False.elim
      · intro stretch isStretch
        unfold Playback.answerTo copyTo at isStretch
        rw [noStretch] at isStretch
        cases isStretch
      · intro copy isCopy
        rcases List.mem_cons.mp isCopy with rfl | before
        · refine ⟨?_, ?_⟩
          · intro same
            cases runs.symm.trans same
          · intro stretch isStretch
            dsimp only at isStretch
            rw [noStretch] at isStretch
            cases isStretch
        · exact sound.copies copy before
  | some working =>
      have counted : 0 < p.stream.unanswered := by
        refine some_ fun off => ?_
        cases (answered.dma.symm.trans runs).symm.trans off
      have target : s'.target = working.other :=
        sound.stream.target counted answered runs
      have ahead := ahead_update { s' with pointer := some s'.target.other } runs
        (data.take p.stream.halfSize)
      have inOrder : ∀ stretch,
          (p.answerTo (reported, s') data toWrite).stretch = some stretch →
          stretch.line = stretch.played ++
            (p.answerTo (reported, s') data toWrite).stream.ahead := by
        intro stretch isStretch
        obtain ⟨old, isOld, rfl⟩ := Option.map_eq_some_iff.mp isStretch
        cases isReported : reported with
        | true => rfl
        | false =>
            dsimp only
            unfold Playback.answerTo copyTo
            dsimp only
            rw [target]
            rw [target] at ahead
            refine Eq.trans ?_ (congrArg (old.played ++ ·) ahead.symm)
            exact (sound.stretch old isOld).2.answered answered counted runs _
              isReported
      constructor
      · exact next.congr rfl rfl rfl rfl rfl rfl
      · intro still
        exact answered.dma.trans (sound.off (answered.running.symm.trans still))
      · exact False.elim
      · intro stretch isStretch
        refine ⟨?_, fun _ => inOrder stretch isStretch, ?_⟩
        · exact fun off => absurd (off.symm.trans runs) nofun
        · exact fun one => absurd (fresh.symm.trans one) nofun
      · intro copy isCopy
        rcases List.mem_cons.mp isCopy with rfl | before
        · refine ⟨?_, inOrder⟩
          intro same
          dsimp only at same
          rw [runs, target] at same
          exact working.other_ne (Option.some.inj same).symm
        · exact sound.copies copy before

theorem Sound.moveTo (sound : p.Sound) (place : WriterPlace)
    (stand : place.stand = p.place.stand)
    (starts : place.Starts → p.stream.dma = none) : (p.moveTo place).Sound where
  stream := by
    change p.stream.Sound place.stand
    rw [stand]
    exact sound.stream
  off := sound.off
  starts := starts
  stretch := sound.stretch
  copies := sound.copies

theorem Sound.returns (sound : p.Sound) (value : Int) :
    { p with returned := some value }.Sound where
  stream := sound.stream
  off := sound.off
  starts := sound.starts
  stretch := sound.stretch
  copies := sound.copies

theorem Sound.write (sound : p.Sound) (idle : p.place = .idle)
    (buf : Option Block) : (p.halI2sWriteDma buf).Sound := by
  unfold halI2sWriteDma
  cases buf with
  | none => exact sound.returns _
  | some data =>
      dsimp only
      split_ifs
      · exact sound.returns _
      · exact sound.returns _
      · exact sound.returns _
      · have moved := sound.moveTo (.loop data 0) (by rw [idle]; rfl) False.elim
        exact
          { stream := moved.stream
            off := moved.off
            starts := moved.starts
            stretch := moved.stretch
            copies := moved.copies }

theorem Sound.trigger (sound : p.Sound) {data : Block} {toWrite : Nat}
    (place : p.place = .trigger data toWrite) : p.writerStep.Sound := by
  have off : p.stream.dma = none := sound.starts (by rw [place]; trivial)
  have away : p.place.stand = .away := by
    rw [place]
    rfl
  have next := sound.stream.start off away
  have fresh : (p.stream.halI2sTrigger true).unanswered = 0 :=
    sound.stream.still off
  unfold writerStep
  rw [place]
  rw [away] at next
  constructor
  · exact next
  · nofun
  · exact False.elim
  · rintro _ ⟨⟩
    refine ⟨nofun, fun _ => rfl, ?_⟩
    exact fun one => absurd (fresh.symm.trans one) nofun
  · exact sound.copies

/-- The flag, the permit and the writer's view of the DMA change nothing of a
stretch. -/
theorem Sound.keeps (sound : p.Sound) (place : WriterPlace) {s' : Stream}
    (stream : s'.Sound place.stand)
    (off : s'.running = false → p.stream.running = false)
    (halfs : s'.halfCallCount = p.stream.halfCallCount)
    (ends : s'.endCallCount = p.stream.endCallCount)
    (dma : s'.dma = p.stream.dma) (contents : s'.contents = p.stream.contents)
    (starts : ¬ place.Starts) :
    { p with stream := s', place := place }.Sound where
  stream := stream
  off := fun still => dma.trans (sound.off (off still))
  starts := fun isStart => absurd isStart starts
  stretch := by
    intro stretch isStretch
    obtain ⟨runs, continues⟩ := sound.stretch stretch isStretch
    have same : s'.unanswered = p.stream.unanswered :=
      congrArg₂ (· + ·) halfs ends
    have ahead : s'.ahead = p.stream.ahead := by
      unfold Stream.ahead
      rw [dma, contents]
    refine ⟨fun none_ => runs (dma.symm.trans none_), ?_⟩
    unfold Continues
    dsimp only
    rw [same, ahead, dma, contents]
    exact continues
  copies := sound.copies

theorem Sound.writerStep (sound : p.Sound) : p.writerStep.Sound := by
  cases place : p.place with
  | idle =>
      unfold Playback.writerStep
      rw [place]
      exact sound
  | loop data toWrite =>
      have away : p.place.stand = .away := by
        rw [place]
        rfl
      unfold Playback.writerStep
      rw [place]
      dsimp only
      split_ifs with short still
      · exact (sound.moveTo .idle away.symm False.elim).returns _
      · exact sound.moveTo _ away.symm fun _ => sound.off still
      · exact sound.moveTo _ away.symm False.elim
  | fill data toWrite =>
      have off : p.stream.dma = none := sound.starts (by rw [place]; trivial)
      unfold Playback.writerStep
      rw [place]
      refine sound.copyOff off _ _ _ ?_
      rw [place]
      rfl
  | trigger data toWrite => exact sound.trigger place
  | running data toWrite =>
      have stream := sound.stream
      unfold Playback.writerStep
      rw [place] at stream ⊢
      exact sound.keeps (.loop _ _) (stream.congr rfl rfl rfl rfl rfl rfl) nofun
        rfl rfl rfl rfl id
  | disable data toWrite =>
      have away : p.place.stand = .away := by
        rw [place]
        rfl
      unfold Playback.writerStep
      rw [place]
      dsimp only
      cases answer : p.stream.answer with
      | none =>
          exact sound.keeps (.waiting _ _) (sound.stream.wait away) id rfl rfl
            rfl rfl id
      | some answer' =>
          have some_ : 0 < p.stream.unanswered := by
            rw [Nat.pos_iff_ne_zero]
            intro none_
            rw [p.stream.answer_eq_none.mpr none_] at answer
            cases answer
          obtain rfl :=
            Option.some.inj ((Stream.answer_eq_some some_).symm.trans answer)
          refine sound.answerTo ?_ sound.stream.answerWoken (fun _ => some_) _ _
          rw [away]
          nofun
  | waiting data toWrite =>
      have stream := sound.stream
      unfold Playback.writerStep
      rw [place] at stream ⊢
      dsimp only
      split_ifs with ready
      · exact sound.keeps (.woken _ _) (stream.wake ready) id rfl rfl rfl rfl id
      · exact sound
  | woken data toWrite =>
      have stands : p.place.stand = .woken := by
        rw [place]
        rfl
      unfold Playback.writerStep
      rw [place]
      refine sound.answerTo ?_ sound.stream.answerWoken ?_ _ _
      · rw [stands]
        nofun
      · exact sound.stream.called (.inr stands)

theorem Continues.finished {stretch : PlayStretch} {working : Half}
    (continues : Continues p.stream stretch) (runs : p.stream.dma = some working)
    {s' : Stream} (contents : s'.contents = p.stream.contents)
    (goes : s'.dma = some working.other)
    (counted : s'.unanswered = p.stream.unanswered + 1) :
    Continues s' { stretch with
      played := stretch.played ++ [p.stream.contents working] } := by
  constructor
  · intro none_
    omega
  · intro one working' runs'
    obtain rfl := Option.some.inj (goes.symm.trans runs')
    rw [contents, continues.1 (by omega)]
    unfold Stream.ahead
    rw [runs, List.append_assoc]
    rfl

theorem Sound.dmaStep (sound : p.Sound) : p.dmaStep.Sound := by
  unfold Playback.dmaStep
  cases runs : p.stream.dma with
  | none => exact sound
  | some working =>
      obtain ⟨stream, contents, next⟩ := sound.stream.finish runs
      dsimp only
      constructor
      · exact stream
      · intro still
        refine (p.stream.finish_running working).resolve_right fun running => ?_
        exact absurd (sound.off (running.symm.trans still)) (by rw [runs]; nofun)
      · intro isStart
        exact absurd (sound.starts isStart) (by rw [runs]; nofun)
      · intro stretch isStretch
        rcases next with stops | ⟨goes, counted⟩
        · dsimp only at isStretch
          rw [stops] at isStretch
          cases isStretch
        · dsimp only at isStretch
          rw [goes] at isStretch
          obtain ⟨old, isOld, rfl⟩ := Option.map_eq_some_iff.mp isStretch
          refine ⟨by rw [goes]; nofun, ?_⟩
          exact (sound.stretch old isOld).2.finished runs contents goes counted
      · exact sound.copies

theorem Sound.openWith (sound : p.Sound) (idle : p.place = .idle) (bufSize : Nat)
    (memory : Half → Block) (stale : Option Half) :
    { p with
      stream := p.stream.halI2sOpen bufSize memory stale
      stretch := if p.stream.isInitiate then p.stretch else none }.Sound := by
  have away : p.place.stand = .away := by
    rw [idle]
    rfl
  have next := sound.stream.open away bufSize memory stale
  cases initiated : p.stream.isInitiate with
  | true =>
      have same : p.stream.halI2sOpen bufSize memory stale = p.stream :=
        if_pos initiated
      rw [same]
      exact sound
  | false =>
      have other : p.stream.halI2sOpen bufSize memory stale =
          { p.stream with
            isInitiate := true
            bufSize := bufSize
            halfCallCount := 0
            endCallCount := 0
            contents := memory
            dmaPointer := stale
            ready := false } := if_neg (by rw [initiated]; nofun)
      rw [other] at next ⊢
      constructor
      · exact next
      · exact sound.off
      · exact sound.starts
      · nofun
      · exact sound.copies

theorem Sound.close (sound : p.Sound) (idle : p.place = .idle) :
    { p with stream := p.stream.halI2sClose, stretch := none }.Sound where
  stream := sound.stream.close (by rw [idle]; rfl)
  off := fun _ => rfl
  starts := fun _ => rfl
  stretch := nofun
  copies := sound.copies

theorem Sound.playbackStep (sound : p.Sound) (event : PlaybackEvent) :
    (playbackStep p event).Sound := by
  cases event with
  | open_ bufSize memory stale =>
      unfold I2s.playbackStep
      dsimp only
      by_cases idle : p.place = .idle
      · rw [if_pos idle]
        exact sound.openWith idle bufSize memory stale
      · rw [if_neg idle]
        exact sound
  | close =>
      unfold I2s.playbackStep
      dsimp only
      by_cases idle : p.place = .idle
      · rw [if_pos idle]
        exact sound.close idle
      · rw [if_neg idle]
        exact sound
  | write buf =>
      unfold I2s.playbackStep
      dsimp only
      by_cases idle : p.place = .idle
      · rw [if_pos idle]
        exact sound.write idle buf
      · rw [if_neg idle]
        exact sound
  | writer => exact sound.writerStep
  | dma => exact sound.dmaStep

end Playback

end XR872.I2s
