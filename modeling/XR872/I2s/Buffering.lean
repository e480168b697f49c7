/-
Double buffering of the I2S driver: a writer and a reader, each with its DMA, in
any order of their steps.
-/

import XR872.I2s.Handing
import XR872.I2s.Recording
import XR872.Library.Run

namespace XR872.I2s

open Runs

structure I2sPrivate where
  playback : Playback
  recording : Recording

inductive I2sEvent where
  | tx (event : PlaybackEvent)
  | rx (event : RecordingEvent)

/-- The two directions share no variable. -/
def i2sStep (i : I2sPrivate) : I2sEvent → I2sPrivate
  | .tx event => { i with playback := playbackStep i.playback event }
  | .rx event => { i with recording := recordingStep i.recording event }

def streamStart : Stream :=
  { running := false
    pointer := none
    dmaPointer := none
    bufSize := 0
    halfCallCount := 0
    endCallCount := 0
    ready := false
    isSemaphore := false
    isInitiate := false
    dma := none
    contents := fun _ => [] }

def i2sStart : I2sPrivate :=
  { playback :=
      { stream := streamStart
        place := .idle
        returned := none
        given := []
        written := []
        stretch := none
        copies := [] }
    recording :=
      { stream := streamStart
        place := .idle
        buf := []
        returned := none
        stretch := none
        copies := [] } }

theorem streamStart_sound : streamStart.Sound .away where
  below := ⟨Nat.zero_lt_succ _, Nat.zero_lt_succ _⟩
  still := fun _ => rfl
  afterEnd := nofun
  afterHalf := nofun
  pointed := nofun
  permit := nofun
  flag := nofun
  called := fun _ runs => absurd rfl runs

structure I2sPrivate.Sound (i : I2sPrivate) : Prop where
  playback : i.playback.Sound
  handed : i.playback.Handed
  recording : i.recording.Sound

theorem i2sStart_sound : i2sStart.Sound where
  playback :=
    { stream := streamStart_sound
      off := fun _ => rfl
      starts := fun _ => rfl
      stretch := nofun
      copies := nofun }
  handed :=
    { given := rfl
      room := fun busy => absurd rfl busy
      block := trivial
      closed := fun _ => ⟨rfl, rfl, rfl, rfl⟩
      unpointed := fun _ _ => rfl
      begun := fun _ => .inl rfl
      stretch := nofun
      copies := nofun }
  recording :=
    { stream := streamStart_sound
      off := fun _ => rfl
      starts := fun _ => rfl
      stretch := nofun
      inBuf := nofun
      copies := nofun }

theorem I2sPrivate.Sound.i2sStep {i : I2sPrivate} (sound : i.Sound)
    (event : I2sEvent) : (i2sStep i event).Sound := by
  cases event with
  | tx event =>
      exact
        { playback := sound.playback.playbackStep event
          handed := sound.handed.playbackStep sound.playback event
          recording := sound.recording }
  | rx event =>
      exact
        { playback := sound.playback
          handed := sound.handed
          recording := sound.recording.recordingStep event }

/-- In every state of every run the counts are below the threshold and no
permit is left over; the blocks written are those the callers gave, and those
delivered are what the callers got; every copy kept off the half the DMA worked
on, and up to it every block of its stretch was played, or delivered, once and
in order. -/
theorem double_buffered (events : List I2sEvent) :
    (run i2sStep i2sStart events).playback.Promised ∧
      (run i2sStep i2sStart events).recording.Promised := by
  have sound : (run i2sStep i2sStart events).Sound :=
    run_invariant I2sPrivate.Sound
      (fun _ event sound => sound.i2sStep event) i2sStart i2sStart_sound events
  exact ⟨sound.playback.promised sound.handed, sound.recording.promised⟩

/-- Two blocks into a buffer of two bytes, then the third when the first one
was played: the second half had nothing yet. -/
example :
    (run i2sStep i2sStart
      (([.open_ 2 (fun _ => [0]) none, .write (some [1, 2, 3]), .writer, .writer,
        .writer, .writer, .writer, .writer, .dma, .writer, .writer, .writer,
        .writer, .dma, .writer, .writer] : List PlaybackEvent).map
          I2sEvent.tx)).playback.stretch =
      some
        { line := [[1], [0], [2], [3]]
          played := [[1], [0]]
          reported := false } := rfl

end XR872.I2s
