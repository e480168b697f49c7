/-
What an open that fails leaves behind, and a close after one that succeeds.

The open state of the system is what the result of an open depends on: who
occupies a direction, the locks, and which streams are open. On it an open and
a close are small functions of their own.
-/

import XR872.Audio.Card

namespace XR872.Audio

/-- Occupancy, locks, and what the codec and its drivers have open. -/
@[ext]
structure OpenState where
  occupied : Both Bool
  locked : Both Bool
  codecLock : Bool
  running : Both Bool
  internal : Both Bool
  external : Both Bool
deriving DecidableEq, Repr

def AudioSystem.openState (system : AudioSystem) : OpenState :=
  { occupied := system.occupied
    locked := system.locked
    codecLock := system.codecLock
    running := system.running
    internal := system.internal.map DriverStream.isInitiate
    external := system.external.map DriverStream.isInitiate }

/-! ### An open and a close of the open state -/

/-- The memory and the channel of a driver are there. -/
def OpenAnswers.granted (answers : OpenAnswers) : Bool :=
  answers.driverBuf && answers.dmaChan.isSome

namespace OpenState

def streams (state : OpenState) (card : Nat) : Both Bool :=
  if card = AUDIO_CARD2 then state.external else state.internal

def setStreams (state : OpenState) (card : Nat) (streams : Both Bool) :
    OpenState :=
  if card = AUDIO_CARD2 then { state with external := streams }
  else { state with internal := streams }

def driverOk (answers : OpenAnswers) (card : Nat) (isInitiate : Bool) : Bool :=
  if card = AUDIO_CARD2 then !isInitiate && answers.granted else true

def driverOpen (answers : OpenAnswers) (card bufSize : Nat) (isInitiate : Bool) :
    Bool :=
  if card = AUDIO_CARD2 then true
  else isInitiate || (decide (bufSize ≠ 0) && answers.granted)

def codecOpened (state : OpenState) (answers : OpenAnswers) (card bufSize : Nat)
    (dir : Direction) : OpenState :=
  let streams := state.streams card
  { state with running := state.running.set true dir }.setStreams card
    (streams.set (driverOpen answers card bufSize (streams.get dir)) dir)

def codecClosed (state : OpenState) (card : Nat) (dir : Direction) : OpenState :=
  { state with running := state.running.set false dir }.setStreams card
    ((state.streams card).set false dir)

/-- The lock and the occupancy of a direction. -/
def hold (state : OpenState) (dir : Direction) (held : Bool) : OpenState :=
  { state with
    locked := state.locked.set held dir
    occupied := state.occupied.set held dir }

/-- What `snd_pcm_open` does behind the codec. -/
def taken (state : OpenState) (flags : Nat) (answers : OpenAnswers) :
    Option (Int × OpenState) :=
  let dir := pcmDirection flags
  if !answers.locked then some (-1, state)
  else if state.locked.get dir then none
  else if flags = PCM_OUT ∧ !answers.cache then some (-1, state)
  else some (0, state.hold dir true)

def opened (state : OpenState) (bufSize card flags : Nat) (answers : OpenAnswers) :
    Option (Int × OpenState) :=
  if card = AUDIO_CARD1 ∧ flags = PCM_OUT then some (-1, state)
  else if card = AUDIO_CARD0 ∨ card = AUDIO_CARD2 then
    if state.codecLock then none
    else
      match codecDirection (BitVec.ofNat 8 flags) with
      | none => some (-1, state)
      | some dir =>
          let after := state.codecOpened answers card bufSize dir
          if driverOk answers card ((state.streams card).get dir) then
            after.taken flags answers
          else some (-1, after)
  else if !answers.locked then some (-1, state)
  else if state.locked.capture then none
  else some (0, state.hold .capture true)

def closed (state : OpenState) (card flags : Nat) : Option (Int × OpenState) :=
  if card = AUDIO_CARD1 ∧ flags = PCM_OUT then some (-1, state)
  else if card = AUDIO_CARD0 ∨ card = AUDIO_CARD2 then
    if state.codecLock then none
    else
      some (0, (state.codecClosed card (pcmDirection flags)).hold
        (pcmDirection flags) false)
  else some (0, state.hold .capture false)

end OpenState

/-- The returned value and the open state behind a call. -/
def outcome (called : Option (Int × AudioSystem)) : Option (Int × OpenState) :=
  called.map fun answer => (answer.1, answer.2.openState)

/-! ### The code does that -/

theorem halI2sOpen_eq (answers : OpenAnswers) (bufSize : Nat)
    (stream : DriverStream) :
    (halI2sOpen answers bufSize stream).1 =
        (!stream.isInitiate && answers.granted) ∧
      (halI2sOpen answers bufSize stream).2.isInitiate = true := by
  unfold halI2sOpen OpenAnswers.granted
  cases open_ : stream.isInitiate with
  | true => exact ⟨rfl, open_⟩
  | false =>
      cases answers.driverBuf with
      | false => exact ⟨rfl, rfl⟩
      | true =>
          cases answers.dmaChan with
          | none => exact ⟨rfl, rfl⟩
          | some channel => exact ⟨rfl, rfl⟩

theorem codecOpen_eq (answers : OpenAnswers) (bufSize : Nat)
    (stream : DriverStream) :
    (codecOpen answers bufSize stream).isInitiate =
      (stream.isInitiate || (decide (bufSize ≠ 0) && answers.granted)) := by
  unfold codecOpen OpenAnswers.granted
  cases open_ : stream.isInitiate with
  | true => exact open_
  | false =>
      by_cases empty : bufSize = 0
      · rw [if_neg Bool.false_ne_true, if_pos empty, open_]
        simp [empty]
      · rw [if_neg Bool.false_ne_true, if_neg empty]
        cases answers.driverBuf with
        | false => simp [empty]
        | true =>
            cases answers.dmaChan with
            | none => simp [empty]
            | some channel => simp [empty]

theorem codecClose_eq (stream : DriverStream) :
    (codecClose stream).isInitiate = false := by
  unfold codecClose
  cases open_ : stream.isInitiate with
  | true => rfl
  | false => exact open_

theorem halCodecOpen_eq (answers : OpenAnswers) (param : DataParam)
    (system : AudioSystem)
    (card : param.audioCard = AUDIO_CARD0 ∨ param.audioCard = AUDIO_CARD2) :
    (halCodecOpen answers param system).map
        (fun answer => (answer.1, answer.2.openState)) =
      if system.codecLock then none
      else
        match codecDirection param.direction with
        | none => some (false, system.openState)
        | some dir =>
            some (OpenState.driverOk answers param.audioCard
                ((system.openState.streams param.audioCard).get dir),
              system.openState.codecOpened answers param.audioCard param.bufSize
                dir) := by
  unfold halCodecOpen
  cases free : system.codecLock with
  | true => rfl
  | false =>
      rw [if_neg Bool.false_ne_true, if_neg Bool.false_ne_true]
      have unlocked : system.openState.codecLock = false := free
      cases codecDirection param.direction with
      | none =>
          simp [AudioSystem.unlockCodec, AudioSystem.openState, free]
      | some dir =>
          dsimp only
          rcases card with internal | external
          · have other : ¬ param.audioCard = AUDIO_CARD2 := by
              rw [internal]
              decide
            rw [if_neg other, if_pos internal]
            simp [AudioSystem.unlockCodec, AudioSystem.setDevice,
              AudioSystem.openState, OpenState.codecOpened, OpenState.setStreams,
              OpenState.streams, OpenState.driverOk, OpenState.driverOpen, other,
              codecOpen_eq, free]
          · rw [if_pos external]
            obtain ⟨ok, marked⟩ :=
              halI2sOpen_eq answers param.bufSize (system.external.get dir)
            rw [ok]
            by_cases goes :
                (!(system.external.get dir).isInitiate && answers.granted) = true
            · rw [if_pos goes]
              simp [AudioSystem.unlockCodec, AudioSystem.setDevice,
                AudioSystem.openState, OpenState.codecOpened,
                OpenState.setStreams, OpenState.streams, OpenState.driverOk,
                OpenState.driverOpen, external, marked, free]
              simpa using goes
            · rw [if_neg goes]
              simp [AudioSystem.unlockCodec,
                AudioSystem.openState, OpenState.codecOpened,
                OpenState.setStreams, OpenState.streams, OpenState.driverOk,
                OpenState.driverOpen, external, marked, free]
              simpa using goes

theorem sndPcmTake_outcome (flags : Nat) (answers : OpenAnswers)
    (system : AudioSystem) :
    outcome (sndPcmTake flags answers system) =
      system.openState.taken flags answers := by
  unfold sndPcmTake OpenState.taken
  cases answers.locked with
  | false => rfl
  | true =>
      have given : ¬ (!true) = true := Bool.false_ne_true
      rw [if_neg given, if_neg given]
      change _ = if system.locked.get (pcmDirection flags) = true then none else _
      cases held : system.locked.get (pcmDirection flags) with
      | true => rfl
      | false =>
          rw [if_neg Bool.false_ne_true, if_neg Bool.false_ne_true]
          by_cases failed : flags = PCM_OUT ∧ (!answers.cache) = true
          · rw [if_pos failed, if_pos failed]
            apply congrArg some
            apply Prod.ext
            · rfl
            · simp [AudioSystem.openState, Both.set_eq_iff, held]
          · rw [if_neg failed, if_neg failed]
            rfl

theorem sndPcmOpen_outcome (config : OpenConfig) (card flags : Nat)
    (answers : OpenAnswers) (system : AudioSystem) :
    outcome (sndPcmOpen config card flags answers system) =
      system.openState.opened config.bufSize card flags answers := by
  unfold sndPcmOpen OpenState.opened
  dsimp only
  by_cases refused : card = AUDIO_CARD1 ∧ flags = PCM_OUT
  · rw [if_pos refused, if_pos refused]
    rfl
  · rw [if_neg refused, if_neg refused]
    by_cases codec : card = AUDIO_CARD0 ∨ card = AUDIO_CARD2
    · rw [if_pos codec, if_pos codec]
      have called := halCodecOpen_eq answers
        { audioCard := card
          direction := BitVec.ofNat 8 flags
          sampleRate := config.rate
          bufSize := config.bufSize
          audioDev :=
            if flags = PCM_OUT then AUDIO_OUT_DEV_SPEAKER
            else AUDIO_IN_DEV_MAINMIC } system codec
      dsimp only at called
      change _ = if system.codecLock = true then none else _
      cases free : system.codecLock with
      | true =>
          rw [free, if_pos rfl, Option.map_eq_none_iff] at called
          rw [called]
          rfl
      | false =>
          rw [free, if_neg Bool.false_ne_true] at called
          rw [if_neg Bool.false_ne_true]
          cases dirOf : codecDirection (BitVec.ofNat 8 flags) with
          | none =>
              rw [dirOf] at called
              rw [Option.map_eq_some_iff] at called
              obtain ⟨⟨ok, next⟩, found, same⟩ := called
              obtain ⟨failed, kept⟩ := Prod.mk.inj same
              dsimp only at failed kept
              subst failed
              rw [found]
              exact congrArg some (Prod.ext rfl kept)
          | some dir =>
              rw [dirOf] at called
              rw [Option.map_eq_some_iff] at called
              obtain ⟨⟨ok, next⟩, found, same⟩ := called
              obtain ⟨goes, kept⟩ := Prod.mk.inj same
              dsimp only at goes kept ⊢
              rw [← goes, ← kept, found]
              cases ok with
              | false => rfl
              | true =>
                  refine (sndPcmTake_outcome flags answers _).trans ?_
                  rw [if_pos rfl, apply_ite AudioSystem.openState]
                  exact congrArg (OpenState.taken · flags answers) (ite_self _)
    · rw [if_neg codec, if_neg codec]
      cases answers.locked with
      | false => rfl
      | true =>
          change outcome (if system.locked.capture = true then none else _) =
            if system.locked.capture = true then none else _
          cases system.locked.capture with
          | true => rfl
          | false => rfl

theorem sndPcmClose_outcome (card flags : Nat) (system : AudioSystem) :
    outcome (sndPcmClose card flags system) =
      system.openState.closed card flags := by
  unfold sndPcmClose OpenState.closed halCodecClose
  dsimp only
  by_cases refused : card = AUDIO_CARD1 ∧ flags = PCM_OUT
  · rw [if_pos refused, if_pos refused]
    rfl
  · rw [if_neg refused, if_neg refused]
    by_cases codec : card = AUDIO_CARD0 ∨ card = AUDIO_CARD2
    · rw [if_pos codec, if_pos codec]
      change _ = if system.codecLock = true then none else _
      cases free : system.codecLock with
      | true => rfl
      | false =>
          rw [if_neg Bool.false_ne_true, if_neg Bool.false_ne_true]
          rcases codec with internal | external
          · have other : ¬ card = AUDIO_CARD2 := by
              rw [internal]
              decide
            rw [if_neg other, if_pos internal]
            simp [outcome, other, AudioSystem.openState, OpenState.codecClosed,
              OpenState.setStreams, OpenState.streams, OpenState.hold,
              codecClose_eq, free]
          · rw [if_pos external]
            simp [outcome, external, AudioSystem.openState,
              OpenState.codecClosed, OpenState.setStreams, OpenState.streams,
              OpenState.hold, halI2sClose, free]
    · rw [if_neg codec, if_neg codec]
      rfl

/-! ### The promise -/

/-- An open that fails leaves the open state as it was, and a later open with the
same arguments does what it would have done; and a close after an open brings
the open state back. -/
def OpenPromise (config : OpenConfig) (card flags : Nat) (answers : OpenAnswers)
    (system : AudioSystem) : Prop :=
  ∀ ret next, sndPcmOpen config card flags answers system = some (ret, next) →
    (ret ≠ 0 → next.openState = system.openState ∧
      ∀ later, outcome (sndPcmOpen config card flags later next) =
        outcome (sndPcmOpen config card flags later system)) ∧
    (ret = 0 → outcome (sndPcmClose card flags next) = some (0, system.openState))

namespace OpenState

/-- The codec and its driver have the direction open already, as far as the call
would open it. -/
def Untouched (state : OpenState) (answers : OpenAnswers) (card bufSize : Nat)
    (dir : Direction) : Prop :=
  state.running.get dir = true ∧
    (state.streams card).get dir =
      driverOpen answers card bufSize ((state.streams card).get dir)

/-- The direction is closed everywhere, and the codec is asked for no other
one. -/
def Closed (state : OpenState) (answers : OpenAnswers) (card bufSize : Nat)
    (asked dir : Direction) : Prop :=
  state.occupied.get dir = false ∧ state.running.get dir = false ∧
    (state.streams card).get dir = false ∧
    (asked ≠ dir → state.Untouched answers card bufSize asked)

/-- The condition on the state before the call, the arguments and the answers. -/
def CleanOpen (state : OpenState) (bufSize card flags : Nat)
    (answers : OpenAnswers) : Prop :=
  if card = AUDIO_CARD1 ∧ flags = PCM_OUT then True
  else if card = AUDIO_CARD0 ∨ card = AUDIO_CARD2 then
    if state.codecLock then True
    else
      match codecDirection (BitVec.ofNat 8 flags) with
      | none => True
      | some asked =>
          if driverOk answers card ((state.streams card).get asked) ∧
              answers.locked then
            if state.locked.get (pcmDirection flags) then True
            else if flags = PCM_OUT ∧ !answers.cache then
              state.Untouched answers card bufSize asked
            else state.Closed answers card bufSize asked (pcmDirection flags)
          else state.Untouched answers card bufSize asked
  else answers.locked → state.locked.capture = false →
    state.occupied.capture = false

def Kept (state : OpenState) (bufSize card flags : Nat) (answers : OpenAnswers) :
    Prop :=
  ∀ ret after, state.opened bufSize card flags answers = some (ret, after) →
    (ret ≠ 0 → after = state) ∧
    (ret = 0 → after.closed card flags = some (0, state))

section

variable (state : OpenState) (bufSize card flags : Nat) (answers : OpenAnswers)

theorem kept_none (called : state.opened bufSize card flags answers = none) :
    state.Kept bufSize card flags answers := by
  intro ret after found
  rw [called] at found
  cases found

theorem kept_failed (after : OpenState)
    (called : state.opened bufSize card flags answers = some (-1, after)) :
    state.Kept bufSize card flags answers ↔ after = state := by
  constructor
  · intro kept
    exact (kept (-1) after called).1 (by decide)
  · intro same ret found_ found
    rw [called] at found
    cases found
    exact ⟨fun _ => same, fun zero => absurd zero (by decide)⟩

theorem kept_opened (after : OpenState)
    (called : state.opened bufSize card flags answers = some (0, after)) :
    state.Kept bufSize card flags answers ↔
      after.closed card flags = some (0, state) := by
  constructor
  · intro kept
    exact (kept 0 after called).2 rfl
  · intro same ret found_ found
    rw [called] at found
    cases found
    exact ⟨fun other => absurd rfl other, fun _ => same⟩

theorem codecOpened_eq_iff (dir : Direction) :
    state.codecOpened answers card bufSize dir = state ↔
      state.Untouched answers card bufSize dir := by
  unfold codecOpened Untouched setStreams streams
  by_cases external : card = AUDIO_CARD2
  · simp only [if_pos external]
    rw [OpenState.ext_iff]
    simp [Both.set_eq_iff]
  · simp only [if_neg external]
    rw [OpenState.ext_iff]
    simp [Both.set_eq_iff]

theorem opened_closed_iff (asked dir : Direction)
    (free : state.locked.get dir = false) :
    (((state.codecOpened answers card bufSize asked).hold dir true).codecClosed
        card dir).hold dir false = state ↔
      state.Closed answers card bufSize asked dir := by
  unfold Closed Untouched codecOpened codecClosed hold setStreams streams
  by_cases external : card = AUDIO_CARD2
  · simp only [if_pos external]
    rw [OpenState.ext_iff]
    by_cases same : asked = dir
    · subst same
      simp [Both.set_eq_iff, free]
    · simp only [Both.set_set, Both.set_eq_iff, Both.set_set_eq_iff _ _ _ same,
        free, true_and, ne_eq, same, not_false_eq_true, forall_const]
      tauto
  · simp only [if_neg external]
    rw [OpenState.ext_iff]
    by_cases same : asked = dir
    · subst same
      simp [Both.set_eq_iff, free]
    · simp only [Both.set_set, Both.set_eq_iff, Both.set_set_eq_iff _ _ _ same,
        free, true_and, ne_eq, same, not_false_eq_true, forall_const]
      tauto

theorem codecOpened_locked (dir : Direction) :
    (state.codecOpened answers card bufSize dir).locked = state.locked := by
  unfold codecOpened setStreams
  split
  · rfl
  · rfl

theorem codecOpened_codecLock (dir : Direction) :
    (state.codecOpened answers card bufSize dir).codecLock = state.codecLock := by
  unfold codecOpened setStreams
  split
  · rfl
  · rfl

theorem kept_taken (asked : Direction)
    (codec : card = AUDIO_CARD0 ∨ card = AUDIO_CARD2)
    (allowed : ¬ (card = AUDIO_CARD1 ∧ flags = PCM_OUT))
    (free : state.codecLock = false) (given : answers.locked = true)
    (called : state.opened bufSize card flags answers =
      (state.codecOpened answers card bufSize asked).taken flags answers) :
    state.Kept bufSize card flags answers ↔
      if state.locked.get (pcmDirection flags) then True
      else if flags = PCM_OUT ∧ !answers.cache then
        state.Untouched answers card bufSize asked
      else state.Closed answers card bufSize asked (pcmDirection flags) := by
  have goes : ¬ (!answers.locked) = true := by
    rw [given]
    exact Bool.false_ne_true
  unfold taken at called
  dsimp only at called
  rw [if_neg goes, codecOpened_locked] at called
  cases held : state.locked.get (pcmDirection flags) with
  | true =>
      rw [held, if_pos rfl] at called
      rw [if_pos rfl, iff_true]
      exact kept_none state bufSize card flags answers called
  | false =>
      rw [held, if_neg Bool.false_ne_true] at called
      rw [if_neg Bool.false_ne_true]
      by_cases failed : flags = PCM_OUT ∧ (!answers.cache) = true
      · rw [if_pos failed] at called ⊢
        exact (kept_failed state bufSize card flags answers _ called).trans
          (codecOpened_eq_iff state bufSize card answers asked)
      · rw [if_neg failed] at called ⊢
        refine (kept_opened state bufSize card flags answers _ called).trans ?_
        have unlocked : ¬ ((state.codecOpened answers card bufSize asked).hold
            (pcmDirection flags) true).codecLock = true := by
          change ¬ (state.codecOpened answers card bufSize asked).codecLock = true
          rw [codecOpened_codecLock, free]
          exact Bool.false_ne_true
        unfold closed
        rw [if_neg allowed, if_pos codec, if_neg unlocked, Option.some_inj,
          Prod.mk.injEq, eq_self_iff_true, true_and]
        exact opened_closed_iff state bufSize card answers asked _ held

theorem kept_iff_clean :
    state.Kept bufSize card flags answers ↔
      state.CleanOpen bufSize card flags answers := by
  unfold CleanOpen
  by_cases refused : card = AUDIO_CARD1 ∧ flags = PCM_OUT
  · rw [if_pos refused, iff_true]
    exact (kept_failed state bufSize card flags answers state
      (if_pos refused)).mpr rfl
  · rw [if_neg refused]
    have called : state.opened bufSize card flags answers = _ := if_neg refused
    by_cases codec : card = AUDIO_CARD0 ∨ card = AUDIO_CARD2
    · rw [if_pos codec] at called ⊢
      cases free : state.codecLock with
      | true =>
          rw [free, if_pos rfl] at called
          rw [if_pos rfl, iff_true]
          exact kept_none state bufSize card flags answers called
      | false =>
          rw [free, if_neg Bool.false_ne_true] at called
          rw [if_neg Bool.false_ne_true]
          cases dirOf : codecDirection (BitVec.ofNat 8 flags) with
          | none =>
              rw [dirOf] at called
              exact iff_true_intro
                ((kept_failed state bufSize card flags answers state called).mpr rfl)
          | some asked =>
              rw [dirOf] at called
              dsimp only at called ⊢
              have failed (left_ : state.opened bufSize card flags answers =
                  some (-1, state.codecOpened answers card bufSize asked)) :
                  state.Kept bufSize card flags answers ↔
                    state.Untouched answers card bufSize asked :=
                (kept_failed state bufSize card flags answers _ left_).trans
                  (codecOpened_eq_iff state bufSize card answers asked)
              cases goes : driverOk answers card ((state.streams card).get asked) with
              | false =>
                  rw [goes, if_neg Bool.false_ne_true] at called
                  rw [if_neg fun both => Bool.false_ne_true both.1]
                  exact failed called
              | true =>
                  rw [goes, if_pos rfl] at called
                  cases given : answers.locked with
                  | false =>
                      rw [if_neg fun both => Bool.false_ne_true both.2]
                      apply failed
                      rw [called]
                      unfold taken
                      rw [given]
                      rfl
                  | true =>
                      rw [if_pos ⟨rfl, rfl⟩]
                      exact kept_taken state bufSize card flags answers asked
                        codec refused free given called
    · rw [if_neg codec] at called ⊢
      cases given : answers.locked with
      | false =>
          rw [given] at called
          refine iff_of_true ?_ fun on => absurd on Bool.false_ne_true
          exact (kept_failed state bufSize card flags answers state called).mpr rfl
      | true =>
          have goes : ¬ (!true) = true := Bool.false_ne_true
          rw [given, if_neg goes] at called
          cases held : state.locked.capture with
          | true =>
              rw [held, if_pos rfl] at called
              refine iff_of_true ?_ fun _ on => absurd on (by decide)
              exact kept_none state bufSize card flags answers called
          | false =>
              rw [held, if_neg Bool.false_ne_true] at called
              refine (kept_opened state bufSize card flags answers _ called).trans ?_
              have same := Both.set_eq_iff state.locked false .capture
              unfold closed hold
              rw [if_neg refused, if_neg codec, Option.some_inj, Prod.mk.injEq,
                eq_self_iff_true, true_and, OpenState.ext_iff]
              simp [Both.set_eq_iff, Both.get, held]

end

end OpenState

theorem openPromise_iff_kept (config : OpenConfig) (card flags : Nat)
    (answers : OpenAnswers) (system : AudioSystem) :
    OpenPromise config card flags answers system ↔
      system.openState.Kept config.bufSize card flags answers := by
  constructor
  · intro promise ret after found
    rw [← sndPcmOpen_outcome] at found
    obtain ⟨⟨answer, next⟩, called, same⟩ := Option.map_eq_some_iff.mp found
    obtain ⟨rfl, rfl⟩ := Prod.mk.inj same
    obtain ⟨failed, opened⟩ := promise answer next called
    refine ⟨fun error => (failed error).1, fun zero => ?_⟩
    rw [← sndPcmClose_outcome]
    exact opened zero
  · intro kept ret next called
    have found := sndPcmOpen_outcome config card flags answers system
    rw [called] at found
    obtain ⟨failed, opened⟩ := kept ret next.openState found.symm
    constructor
    · intro error
      refine ⟨failed error, fun later => ?_⟩
      rw [sndPcmOpen_outcome, sndPcmOpen_outcome, failed error]
    · intro zero
      rw [sndPcmClose_outcome]
      exact opened zero

/-- What a failed open leaves, and a close behind an open that succeeds, are as
promised exactly under the condition. -/
theorem openPromise_iff (config : OpenConfig) (card flags : Nat)
    (answers : OpenAnswers) (system : AudioSystem) :
    OpenPromise config card flags answers system ↔
      system.openState.CleanOpen config.bufSize card flags answers :=
  (openPromise_iff_kept config card flags answers system).trans
    (OpenState.kept_iff_clean _ _ _ _ _)

/-- The system after `snd_pcm_init`, with the codecs registered. -/
def idleSystem : AudioSystem :=
  let closed : Both DriverStream :=
    { play := { isInitiate := false, buf := false, bufSize := 0, dmaChan := none }
      capture :=
        { isInitiate := false, buf := false, bufSize := 0, dmaChan := none } }
  { isInitialize := true
    currentDev := 0
    occupied := { play := false, capture := false }
    locked := { play := false, capture := false }
    cache := false
    codecLock := false
    running := { play := false, capture := false }
    device := { play := 0, capture := 0 }
    sampleRate := 0
    internal := closed
    external := closed }

def cdConfig : OpenConfig :=
  { channels := 2, format := .s16Le, periodSize := 1024, periodCount := 2
    rate := 44100 }

/-- Without memory for the cache the codec stays open; and a buffer that the
driver of the external codec does not get leaves its stream marked, so that the
next open fails too. -/
theorem failed_open_stays :
    ¬ OpenPromise cdConfig AUDIO_CARD0 PCM_OUT
        { driverBuf := true, dmaChan := some 0, locked := true, cache := false }
        idleSystem ∧
      ¬ OpenPromise cdConfig AUDIO_CARD2 PCM_OUT
        { driverBuf := false, dmaChan := none, locked := true, cache := true }
        idleSystem := by
  constructor
  · intro promise
    have clean := (OpenState.kept_iff_clean _ _ _ _ _).mp
      ((openPromise_iff_kept cdConfig AUDIO_CARD0 PCM_OUT _ idleSystem).mp promise)
    have running := clean.1
    revert running
    decide
  · intro promise
    have clean := (OpenState.kept_iff_clean _ _ _ _ _).mp
      ((openPromise_iff_kept cdConfig AUDIO_CARD2 PCM_OUT _ idleSystem).mp promise)
    have running := clean.1
    revert running
    decide

end XR872.Audio
