/-
The caller's data on their way into the buffer of the writer.

What was given is what was written and the whole blocks of the data that are
left. A stretch begins with the block written last, and goes on with each that
is written.
-/

import XR872.I2s.Playback

namespace XR872.I2s

open Blocks

namespace WriterPlace

def left (size : Nat) : WriterPlace → Block
  | .idle => []
  | .loop data _ => data
  | .fill data _ => data
  | .trigger data _ => data.drop size
  | .running data _ => data.drop size
  | .disable data _ => data
  | .waiting data _ => data
  | .woken data _ => data

def HasBlock (size : Nat) : WriterPlace → Prop
  | .fill data _ => size ≤ data.length
  | .disable data _ => size ≤ data.length
  | .waiting data _ => size ≤ data.length
  | .woken data _ => size ≤ data.length
  | _ => True

def Answers : WriterPlace → Prop
  | .running .. => True
  | .disable .. => True
  | .waiting .. => True
  | .woken .. => True
  | _ => False

end WriterPlace

theorem full_nil (size : Nat) : full size ([] : Block) = [] := by
  unfold full
  rw [List.length_nil, Nat.zero_div]
  rfl

theorem full_left {size : Nat} (positive : 0 < size) {data : Block}
    (long : size ≤ data.length) :
    full size data = data.take size :: full size (data.drop size) := by
  have whole : (data.take size).length = size := by
    rw [List.length_take]
    omega
  have split := full_block positive (data.take size) (data.drop size) whole
  rw [List.take_append_drop] at split
  exact split

theorem suffix_concat {blocks written : List Block} (last : blocks <:+ written)
    (block : Block) : blocks ++ [block] <:+ written ++ [block] := by
  obtain ⟨before, rfl⟩ := last
  rw [List.append_assoc]
  exact List.suffix_append ..

theorem PlayStretch.Tells.goesOn {stretch : PlayStretch} {written : List Block}
    (tells : stretch.Tells written) (block : Block) :
    { stretch with line := stretch.line ++ [block] }.Tells
      (written ++ [block]) := by
  obtain ⟨first, second, later, line, last⟩ := tells
  refine ⟨first, second, later ++ [block], ?_, ?_⟩
  · dsimp only
    rw [line]
    rfl
  · dsimp only
    split_ifs at last ⊢ with reported
    · exact suffix_concat last block
    · exact last.imp (suffix_concat · block) (suffix_concat · block)

namespace Playback

/-- While the DMA is off, what it will find: behind the copy of the writer the
last block, in the first half or behind the one before it; else nothing of the
caller's, or the last block in the first half. -/
def Begun (p : Playback) : Prop :=
  match p.place with
  | .trigger .. =>
      [p.stream.contents .first] <:+ p.written ∨
        [p.stream.contents .first, p.stream.contents .second] <:+ p.written
  | _ => p.stream.dma = none → p.stream.pointer = none ∨
      p.stream.pointer = some .second ∧
        [p.stream.contents .first] <:+ p.written

structure Handed (p : Playback) : Prop where
  given : p.given = p.written ++
    full p.stream.halfSize (p.place.left p.stream.halfSize)
  room : p.place ≠ .idle → 0 < p.stream.halfSize
  block : p.place.HasBlock p.stream.halfSize
  closed : p.stream.isInitiate = false → p.place = .idle ∧
    p.stream.running = false ∧ p.stream.bufSize = 0 ∧ p.stream.pointer = none
  unpointed : p.place.Answers ∨ p.stream.running = true →
    p.stream.dma = none → p.stream.dmaPointer = none
  begun : p.Begun
  stretch : ∀ stretch, p.stretch = some stretch → stretch.Tells p.written
  copies : ∀ copy ∈ p.copies, ∀ stretch, copy.stretch = some stretch →
    stretch.Tells copy.written

variable {p : Playback}

theorem Sound.promised (sound : p.Sound) (handed : p.Handed) : p.Promised where
  below := sound.stream.below
  noPermit := by
    intro away
    by_contra ready
    exact away (sound.stream.permit (Bool.not_eq_false _ |>.mp ready))
  copies := sound.copies
  handed := by
    rw [handed.given]
    exact List.prefix_append ..
  returned := by
    intro idle
    have given := handed.given
    rw [idle] at given
    change _ = _ ++ full _ [] at given
    rw [full_nil, List.append_nil] at given
    exact given.symm
  tells := handed.copies

namespace Handed

theorem initiated (handed : p.Handed) (busy : p.place ≠ .idle) :
    p.stream.isInitiate = true := by
  by_contra shut
  exact busy (handed.closed (Bool.not_eq_true _ |>.mp shut)).1

theorem moveTo (handed : p.Handed) (place : WriterPlace)
    (from_ : p.place ≠ .idle)
    (left : full p.stream.halfSize (place.left p.stream.halfSize) =
      full p.stream.halfSize (p.place.left p.stream.halfSize))
    (block : place.HasBlock p.stream.halfSize)
    (answers : place.Answers → p.place.Answers ∨ p.stream.running = true)
    (begun : (p.moveTo place).Begun) : (p.moveTo place).Handed where
  given := by
    change p.given = p.written ++
      full p.stream.halfSize (place.left p.stream.halfSize)
    rw [left]
    exact handed.given
  room := fun _ => handed.room from_
  block := block
  closed := fun shut => absurd ((handed.initiated from_).symm.trans shut) nofun
  unpointed := fun runs =>
    handed.unpointed (runs.elim answers Or.inr)
  begun := begun
  stretch := handed.stretch
  copies := handed.copies

theorem congr (handed : p.Handed) {s' : Stream}
    (bufSize : s'.bufSize = p.stream.bufSize)
    (isInitiate : s'.isInitiate = p.stream.isInitiate)
    (running : s'.running = true → p.place.Answers ∨ p.stream.running = true)
    (dma : s'.dma = p.stream.dma)
    (pointers : s'.pointer = p.stream.pointer ∧
      s'.dmaPointer = p.stream.dmaPointer)
    (contents : s'.contents = p.stream.contents)
    (busy : p.place ≠ .idle) : { p with stream := s' }.Handed where
  given := by
    change p.given = p.written ++
      full (s'.bufSize / 2) (p.place.left (s'.bufSize / 2))
    rw [bufSize]
    exact handed.given
  room := by
    change _ → 0 < s'.bufSize / 2
    rw [bufSize]
    exact handed.room
  block := by
    change p.place.HasBlock (s'.bufSize / 2)
    rw [bufSize]
    exact handed.block
  closed := fun shut => absurd
    ((handed.initiated busy).symm.trans (isInitiate.symm.trans shut)) nofun
  unpointed := by
    intro runs off
    refine pointers.2.trans (handed.unpointed ?_ (dma.symm.trans off))
    exact runs.elim Or.inl running
  begun := by
    have begun := handed.begun
    unfold Begun at begun ⊢
    dsimp only
    rw [dma, pointers.1, contents]
    exact begun
  stretch := handed.stretch
  copies := handed.copies

/-- A copy, to a stretch that goes on with it or begins with it again. -/
theorem copyTo (handed : p.Handed) {s : Stream} {half : Half} {data : Block}
    {reported : Bool} {place : WriterPlace} (busy : p.place ≠ .idle)
    (from_ : p.place.left p.stream.halfSize = data)
    (long : p.stream.halfSize ≤ data.length)
    (bufSize : s.bufSize = p.stream.bufSize)
    (isInitiate : s.isInitiate = p.stream.isInitiate)
    (left : place.left p.stream.halfSize = data.drop p.stream.halfSize)
    (block : ∀ size, place.HasBlock size)
    (unpointed : place.Answers ∨ s.running = true → s.dma = none →
      s.dmaPointer = none)
    (begun : (p.copyTo s half (data.take p.stream.halfSize) reported
      place).Begun)
    (target : ∀ stretch, p.stretch = some stretch →
      ∃ working, s.dma = some working ∧ half = working.other) :
    (p.copyTo s half (data.take p.stream.halfSize) reported place).Handed := by
  have tells : ∀ stretch,
      (p.copyTo s half (data.take p.stream.halfSize) reported place).stretch =
        some stretch →
      stretch.Tells (p.written ++ [data.take p.stream.halfSize]) := by
    intro stretch isStretch
    obtain ⟨old, isOld, rfl⟩ := Option.map_eq_some_iff.mp isStretch
    cases isReported : reported with
    | true =>
        obtain ⟨working, runs, isHalf⟩ := target old isOld
        refine ⟨s.contents working, data.take p.stream.halfSize, [], ?_, ?_⟩
        · subst isHalf
          exact ahead_update s runs _
        · exact List.suffix_append ..
    | false => exact (handed.stretch old isOld).goesOn _
  constructor
  · change p.given = (p.written ++ [data.take p.stream.halfSize]) ++
      full (s.bufSize / 2) (place.left (s.bufSize / 2))
    rw [bufSize, handed.given, from_, List.append_assoc]
    change _ = _ ++ _ :: full p.stream.halfSize (place.left p.stream.halfSize)
    rw [left, full_left (handed.room busy) long]
  · intro _
    change 0 < s.bufSize / 2
    rw [bufSize]
    exact handed.room busy
  · exact block _
  · intro shut
    have shut := isInitiate.symm.trans shut
    exact absurd ((handed.initiated busy).symm.trans shut) nofun
  · exact unpointed
  · exact begun
  · exact tells
  · intro copy isCopy
    rcases List.mem_cons.mp isCopy with rfl | before
    · exact tells
    · exact handed.copies copy before

theorem answerTo (sound : p.Sound) (handed : p.Handed)
    {answer : Bool × Stream}
    (answered : p.stream.Answered answer.2 answer.1)
    (some_ : p.stream.dma ≠ none → 0 < p.stream.unanswered) {data : Block}
    (busy : p.place.Answers) (toWrite : Nat)
    (from_ : p.place.left p.stream.halfSize = data)
    (long : p.stream.halfSize ≤ data.length) :
    (p.answerTo answer data toWrite).Handed := by
  obtain ⟨reported, s'⟩ := answer
  dsimp only at answered
  have notIdle : p.place ≠ .idle := by
    intro idle
    rw [idle] at busy
    exact busy
  refine handed.copyTo notIdle from_ long answered.bufSize answered.isInitiate
    rfl (fun _ => trivial) ?_ ?_ ?_
  · intro _ off
    change s'.dmaPointer = none
    rw [answered.dmaPointer]
    exact handed.unpointed (.inl busy) (answered.dma.symm.trans off)
  · intro off
    -- the DMA was stopped, so the block went to the first half
    have pointer : s'.dmaPointer = none := answered.dmaPointer.trans
      (handed.unpointed (.inl busy) (answered.dma.symm.trans off))
    have target : s'.target = .first := by
      unfold Stream.target
      rw [pointer]
      rfl
    refine .inr ⟨?_, ?_⟩
    · change some s'.target.other = _
      rw [target]
      rfl
    · change [Function.update s'.contents s'.target _ .first] <:+ _
      rw [target, Function.update_self]
      exact List.suffix_append ..
  · intro stretch isStretch
    obtain ⟨working, runs⟩ := Option.ne_none_iff_exists'.mp
      (sound.stretch stretch isStretch).1
    have still : s'.dma = some working := answered.dma.trans runs
    exact ⟨working, still,
      sound.stream.target (some_ (by rw [runs]; nofun)) answered still⟩

theorem write (handed : p.Handed) (idle : p.place = .idle)
    (buf : Option Block) : (p.halI2sWriteDma buf).Handed := by
  have returns (value : Int) : { p with returned := some value }.Handed :=
    { given := handed.given
      room := handed.room
      block := handed.block
      closed := handed.closed
      unpointed := handed.unpointed
      begun := handed.begun
      stretch := handed.stretch
      copies := handed.copies }
  unfold halI2sWriteDma
  cases buf with
  | none => exact returns _
  | some data =>
      dsimp only
      split_ifs with empty shut short
      · exact returns _
      · exact returns _
      · exact returns _
      · have given := handed.given
        have begun := handed.begun
        unfold Begun at begun
        rw [idle] at given begun
        change _ = _ ++ full _ [] at given
        rw [full_nil, List.append_nil] at given
        exact
          { given := congrArg (· ++ full p.stream.halfSize data) given
            room := fun _ => Nat.pos_of_ne_zero shut
            block := trivial
            closed := by
              intro isShut
              have none_ := (handed.closed isShut).2.2.1
              unfold Stream.halfSize at shut
              rw [none_] at shut
              exact absurd rfl shut
            unpointed := fun runs =>
              handed.unpointed (runs.elim False.elim Or.inr)
            begun := begun
            stretch := handed.stretch
            copies := handed.copies }

theorem writerStep (sound : p.Sound) (handed : p.Handed) :
    p.writerStep.Handed := by
  have begun := handed.begun
  have block := handed.block
  unfold Begun at begun
  cases place : p.place with
  | idle =>
      unfold Playback.writerStep
      rw [place]
      exact handed
  | loop data toWrite =>
      rw [place] at begun
      have busy : p.place ≠ .idle := by rw [place]; nofun
      unfold Playback.writerStep
      rw [place]
      dsimp only
      split_ifs with short still
      · have last := handed.moveTo .idle busy
          (by rw [place]; exact (full_nil _).trans (full_short _ short).symm)
          trivial False.elim begun
        exact
          { given := last.given
            room := last.room
            block := last.block
            closed := last.closed
            unpointed := last.unpointed
            begun := last.begun
            stretch := last.stretch
            copies := last.copies }
      · exact handed.moveTo (.fill data toWrite) busy (by rw [place]; rfl)
          (Nat.not_lt.mp short) False.elim begun
      · exact handed.moveTo (.disable data toWrite) busy (by rw [place]; rfl)
          (Nat.not_lt.mp short)
          (fun _ => .inr (Bool.not_eq_false _ |>.mp still)) begun
  | fill data toWrite =>
      have off : p.stream.dma = none := sound.starts (by rw [place]; trivial)
      have unpointed := handed.unpointed
      rw [place] at begun block unpointed
      unfold Playback.writerStep
      rw [place]
      refine handed.copyTo (by rw [place]; nofun) (by rw [place]; rfl) block rfl
        rfl rfl (fun _ => trivial) unpointed ?_ ?_
      · let half := p.stream.pointer.getD .first
        change [Function.update p.stream.contents half _ .first] <:+ _ ∨
          [Function.update p.stream.contents half _ .first,
            Function.update p.stream.contents half _ .second] <:+ _
        dsimp only [half]
        rcases begun off with none_ | ⟨second, last⟩
        · rw [none_]
          left
          exact List.suffix_append ..
        · rw [second]
          right
          exact suffix_concat last _
      · intro stretch isStretch
        rw [sound.stretch_none off] at isStretch
        cases isStretch
  | trigger data toWrite =>
      have given := handed.given
      have room := handed.room
      rw [place] at begun given room
      unfold Playback.writerStep
      rw [place]
      constructor
      · exact given
      · exact fun _ => room nofun
      · trivial
      · exact fun shut => absurd
          ((handed.initiated (by rw [place]; nofun)).symm.trans shut) nofun
      · nofun
      · nofun
      · intro stretch isStretch
        obtain rfl := Option.some.inj isStretch
        exact ⟨p.stream.contents .first, p.stream.contents .second, [], rfl,
          begun⟩
      · exact handed.copies
  | running data toWrite =>
      rw [place] at begun
      have busy : p.place ≠ .idle := by rw [place]; nofun
      have moved := handed.moveTo
        (.loop (data.drop p.stream.halfSize) (toWrite + p.stream.halfSize)) busy
        (by rw [place]; rfl) trivial False.elim begun
      unfold Playback.writerStep
      rw [place]
      have runs := handed.unpointed (.inl (by rw [place]; trivial))
      exact
        { given := moved.given
          room := moved.room
          block := moved.block
          closed := fun shut => absurd
            ((handed.initiated busy).symm.trans shut) nofun
          unpointed := fun _ => runs
          begun := moved.begun
          stretch := moved.stretch
          copies := moved.copies }
  | disable data toWrite =>
      have busy : p.place ≠ .idle := by rw [place]; nofun
      rw [place] at begun block
      unfold Playback.writerStep
      rw [place]
      dsimp only
      cases answer : p.stream.answer with
      | none =>
          have moved := handed.moveTo (.waiting data toWrite) busy
            (by rw [place]; rfl) block
            (fun _ => .inl (by rw [place]; trivial)) begun
          exact moved.congr rfl rfl Or.inr rfl ⟨rfl, rfl⟩ rfl nofun
      | some answer' =>
          have some_ : 0 < p.stream.unanswered := by
            rw [Nat.pos_iff_ne_zero]
            intro none_
            rw [p.stream.answer_eq_none.mpr none_] at answer
            cases answer
          obtain rfl :=
            Option.some.inj ((Stream.answer_eq_some some_).symm.trans answer)
          exact handed.answerTo sound sound.stream.answerWoken
            (fun _ => some_) (by rw [place]; trivial) _ (by rw [place]; rfl)
            block
  | waiting data toWrite =>
      have busy : p.place ≠ .idle := by rw [place]; nofun
      rw [place] at begun block
      unfold Playback.writerStep
      rw [place]
      dsimp only
      split_ifs with ready
      · have moved := handed.moveTo (.woken data toWrite) busy
          (by rw [place]; rfl) block
          (fun _ => .inl (by rw [place]; trivial)) begun
        exact moved.congr rfl rfl Or.inr rfl ⟨rfl, rfl⟩ rfl nofun
      · exact handed
  | woken data toWrite =>
      have stands : p.place.stand = .woken := by
        rw [place]
        rfl
      rw [place] at block
      unfold Playback.writerStep
      rw [place]
      exact handed.answerTo sound sound.stream.answerWoken
        (sound.stream.called (.inr stands)) (by rw [place]; trivial) _
        (by rw [place]; rfl) block

theorem dmaStep (sound : p.Sound) (handed : p.Handed) : p.dmaStep.Handed := by
  unfold Playback.dmaStep
  cases runs : p.stream.dma with
  | none => exact handed
  | some working =>
      obtain ⟨-, contents, -⟩ := sound.stream.finish runs
      obtain ⟨bufSize, isInitiate, stops⟩ :=
        p.stream.finish_pointers working
      have given := handed.given
      have room := handed.room
      have block := handed.block
      dsimp only
      generalize p.stream.finish working = s' at *
      constructor
      · change p.given = p.written ++
          full (s'.bufSize / 2) (p.place.left (s'.bufSize / 2))
        rw [bufSize]
        exact given
      · change _ → 0 < s'.bufSize / 2
        rw [bufSize]
        exact room
      · change p.place.HasBlock (s'.bufSize / 2)
        rw [bufSize]
        exact block
      · intro shut
        have still := (handed.closed (isInitiate.symm.trans shut)).2.1
        exact absurd ((sound.off still).symm.trans runs) nofun
      · exact fun _ off => (stops off).2
      · unfold Begun
        dsimp only
        split
        · next data toWrite place =>
            have off := sound.starts (by rw [place]; trivial)
            exact absurd (off.symm.trans runs) nofun
        · exact fun off => .inl (stops off).1
      · intro stretch isStretch
        dsimp only at isStretch
        split at isStretch
        · cases isStretch
        · obtain ⟨old, isOld, rfl⟩ := Option.map_eq_some_iff.mp isStretch
          exact handed.stretch old isOld
      · exact handed.copies

theorem openWith (handed : p.Handed) (idle : p.place = .idle) (bufSize : Nat)
    (memory : Half → Block) (stale : Option Half) :
    { p with
      stream := p.stream.halI2sOpen bufSize memory stale
      stretch := if p.stream.isInitiate then p.stretch else none }.Handed := by
  cases initiated : p.stream.isInitiate with
  | true =>
      have same : p.stream.halI2sOpen bufSize memory stale = p.stream :=
        if_pos initiated
      rw [same]
      exact handed
  | false =>
      have other : p.stream.halI2sOpen bufSize memory stale =
          { p.stream with
            isInitiate := true
            bufSize := bufSize
            halfCallCount := 0
            endCallCount := 0
            contents := memory
            dmaPointer := stale
            ready := false } := if_neg (by rw [initiated]; nofun)
      obtain ⟨_, still, _, pointer⟩ := handed.closed initiated
      have given := handed.given
      rw [idle] at given
      change _ = _ ++ full _ [] at given
      rw [other]
      constructor
      · dsimp only
        rw [idle]
        change _ = _ ++ full _ []
        rw [given, full_nil, full_nil]
      · exact fun busy => absurd idle busy
      · dsimp only
        rw [idle]
        trivial
      · nofun
      · rintro (answers | running)
        · dsimp only at answers
          rw [idle] at answers
          exact answers.elim
        · exact absurd (running.symm.trans still) nofun
      · unfold Begun
        dsimp only
        rw [idle]
        exact fun _ => .inl pointer
      · nofun
      · exact handed.copies

theorem close (handed : p.Handed) (idle : p.place = .idle) :
    { p with stream := p.stream.halI2sClose, stretch := none }.Handed := by
  have given := handed.given
  rw [idle] at given
  change _ = _ ++ full _ [] at given
  constructor
  · dsimp only
    rw [idle]
    change _ = _ ++ full _ []
    rw [given, full_nil, full_nil]
  · exact fun busy => absurd idle busy
  · dsimp only
    rw [idle]
    trivial
  · exact fun _ => ⟨idle, rfl, rfl, rfl⟩
  · rintro (answers | running)
    · dsimp only at answers
      rw [idle] at answers
      exact answers.elim
    · cases running
  · unfold Begun
    dsimp only
    rw [idle]
    exact fun _ => .inl rfl
  · nofun
  · exact handed.copies

theorem playbackStep (sound : p.Sound) (handed : p.Handed)
    (event : PlaybackEvent) : (playbackStep p event).Handed := by
  cases event with
  | open_ bufSize memory stale =>
      unfold I2s.playbackStep
      dsimp only
      by_cases idle : p.place = .idle
      · rw [if_pos idle]
        exact handed.openWith idle bufSize memory stale
      · rw [if_neg idle]
        exact handed
  | close =>
      unfold I2s.playbackStep
      dsimp only
      by_cases idle : p.place = .idle
      · rw [if_pos idle]
        exact handed.close idle
      · rw [if_neg idle]
        exact handed
  | write buf =>
      unfold I2s.playbackStep
      dsimp only
      by_cases idle : p.place = .idle
      · rw [if_pos idle]
        exact handed.write idle buf
      · rw [if_neg idle]
        exact handed
  | writer => exact handed.writerStep sound
  | dma => exact handed.dmaStep sound

end Handed

end Playback

end XR872.I2s
