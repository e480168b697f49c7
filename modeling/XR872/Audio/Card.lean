/-
Opening and closing a sound card.

`snd_pcm_open` opens the codec first, then takes the lock of its direction and,
for playing, a cache. What it has done before a step that fails is left as it
is, the lock excepted. The manager's mutex is released before every call that
can fail, and is left out.
-/

import XR872.Audio.Pcm

namespace XR872.Audio

def AUDIO_CARD0 : Nat := 0

def AUDIO_CARD1 : Nat := 1

def AUDIO_CARD2 : Nat := 2

def PCM_OUT : Nat := 0

inductive Direction where
  | play
  | capture
deriving DecidableEq, Repr

/-- A value for each direction. -/
structure Both (α : Type) where
  play : α
  capture : α
deriving DecidableEq, Repr

namespace Both

variable {α β : Type}

def get (both : Both α) : Direction → α
  | .play => both.play
  | .capture => both.capture

def set (both : Both α) (value : α) : Direction → Both α
  | .play => { both with play := value }
  | .capture => { both with capture := value }

def map (change : α → β) (both : Both α) : Both β :=
  { play := change both.play, capture := change both.capture }

@[simp] theorem get_set (both : Both α) (value : α) (dir : Direction) :
    (both.set value dir).get dir = value := by
  cases dir <;> rfl

theorem get_set_of_ne (both : Both α) (value : α) {dir other : Direction}
    (different : other ≠ dir) : (both.set value dir).get other = both.get other := by
  cases dir <;> cases other <;> first | rfl | exact absurd rfl different

@[simp] theorem set_set (both : Both α) (first second : α) (dir : Direction) :
    (both.set first dir).set second dir = both.set second dir := by
  cases dir <;> rfl

@[simp] theorem set_get (both : Both α) (dir : Direction) :
    both.set (both.get dir) dir = both := by
  cases dir <;> rfl

theorem set_eq_iff (both : Both α) (value : α) (dir : Direction) :
    both.set value dir = both ↔ both.get dir = value := by
  constructor
  · intro same
    rw [← same, get_set]
  · intro same
    rw [← same, set_get]

theorem set_set_eq_iff (both : Both α) (first second : α) {dir other : Direction}
    (different : other ≠ dir) :
    (both.set first other).set second dir = both ↔
      both.get other = first ∧ both.get dir = second := by
  constructor
  · intro same
    constructor
    · rw [← same, get_set_of_ne _ _ different, get_set]
    · rw [← same, get_set]
  · intro ⟨here, there⟩
    rw [← here, set_get, ← there, set_get]

@[simp] theorem map_get (change : α → β) (both : Both α) (dir : Direction) :
    (both.map change).get dir = change (both.get dir) := by
  cases dir <;> rfl

@[simp] theorem map_set (change : α → β) (both : Both α) (value : α)
    (dir : Direction) :
    (both.set value dir).map change = (both.map change).set (change value) dir := by
  cases dir <;> rfl

end Both

/-! ### The drivers -/

/-- One direction of a driver. -/
structure DriverStream where
  isInitiate : Bool
  /-- The buffer is the driver's. -/
  buf : Bool
  bufSize : Nat
  dmaChan : Option Nat
deriving DecidableEq, Repr

/-- What an open is answered: the driver's buffer and its DMA channel, the lock
and the cache. -/
structure OpenAnswers where
  driverBuf : Bool
  dmaChan : Option Nat
  locked : Bool
  cache : Bool
deriving DecidableEq, Repr

/-- `HAL_I2S_Open`: the stream is marked first. -/
def halI2sOpen (answers : OpenAnswers) (bufSize : Nat) (stream : DriverStream) :
    Bool × DriverStream :=
  if stream.isInitiate then (false, stream)
  else
    let marked := { stream with isInitiate := true, dmaChan := none, bufSize }
    if answers.driverBuf then
      match answers.dmaChan with
      | none => (false, { marked with buf := false })
      | some channel =>
          (true, { marked with buf := true, dmaChan := some channel })
    else (false, { marked with buf := false })

def halI2sClose (stream : DriverStream) : DriverStream :=
  { stream with isInitiate := false, dmaChan := none, buf := false, bufSize := 0 }

/-- `CODEC_Open`: a stream that is open already is no error, and the stream is
marked last. -/
def codecOpen (answers : OpenAnswers) (bufSize : Nat) (stream : DriverStream) :
    DriverStream :=
  if stream.isInitiate then stream
  else if bufSize = 0 then stream
  else
    let asked := { stream with dmaChan := none, bufSize }
    if answers.driverBuf then
      match answers.dmaChan with
      | none => { asked with buf := false }
      | some channel =>
          { asked with buf := true, dmaChan := some channel, isInitiate := true }
    else { asked with buf := false }

def codecClose (stream : DriverStream) : DriverStream :=
  if stream.isInitiate then
    { stream with
      isInitiate := false
      dmaChan := none
      buf := false
      bufSize := 0 }
  else stream

/-! ### The codec -/

def AUDIO_OUT_DEV_ALL : BitVec 16 := 0x0300#16

def AUDIO_IN_DEV_ALL : BitVec 16 := 0x000f#16

def AUDIO_OUT_DEV_SPEAKER : BitVec 16 := 0x0200#16

def AUDIO_IN_DEV_MAINMIC : BitVec 16 := 0x0001#16

def AUDIO_IN_DEV_HEADPHONEMIC : BitVec 16 := 0x0002#16

/-- `mgrctl_ctx`, `snd_pcm_priv`, `gCodecPriv` and the streams of the internal
and the external codec. -/
structure AudioSystem where
  isInitialize : Bool
  currentDev : BitVec 16
  /-- `playback` and `record` of the manager. -/
  occupied : Both Bool
  /-- `play_lock` and `cap_lock`. -/
  locked : Both Bool
  /-- `play_priv.cache`. -/
  cache : Bool
  codecLock : Bool
  /-- `playBack` and `record` of the codec. -/
  running : Both Bool
  /-- `playDev` and `recordDev`. -/
  device : Both (BitVec 16)
  sampleRate : Nat
  internal : Both DriverStream
  external : Both DriverStream
deriving DecidableEq, Repr

/-- `DATA_Param`, as far as it is read here. -/
structure DataParam where
  audioCard : Nat
  direction : BitVec 8
  sampleRate : Nat
  bufSize : Nat
  audioDev : BitVec 16
deriving DecidableEq, Repr

def codecDirection (direction : BitVec 8) : Option Direction :=
  if direction = 0#8 then some .play
  else if direction = 1#8 then some .capture
  else none

def AudioSystem.unlockCodec (system : AudioSystem) : AudioSystem :=
  { system with codecLock := false }

def AudioSystem.setDevice (system : AudioSystem) (audioDev : BitVec 16) :
    AudioSystem :=
  { system with
    device := system.device.set audioDev
      (if system.running.play then .play else .capture) }

/-- `HAL_CODEC_Open`; `none` waits for the codec's lock for ever. What it sets
in the chip is left out. -/
def halCodecOpen (answers : OpenAnswers) (param : DataParam)
    (system : AudioSystem) : Option (Bool × AudioSystem) :=
  if system.codecLock then none
  else
    let system := { system with codecLock := true }
    match codecDirection param.direction with
    | none => some (false, system.unlockCodec)
    | some dir =>
        let system := { system with running := system.running.set true dir }
        if param.audioCard = AUDIO_CARD2 then
          let opened := halI2sOpen answers param.bufSize (system.external.get dir)
          let system :=
            { system with
              sampleRate := if param.sampleRate = 0 then 48000 else param.sampleRate
              external := system.external.set opened.2 dir }
          if opened.1 then some (true, (system.setDevice param.audioDev).unlockCodec)
          else some (false, system.unlockCodec)
        else if param.audioCard = AUDIO_CARD0 then
          let system :=
            { system with
              internal := system.internal.set
                (codecOpen answers param.bufSize (system.internal.get dir)) dir }
          some (true, (system.setDevice param.audioDev).unlockCodec)
        else some (false, system.unlockCodec)

def halCodecClose (card : Nat) (dir : Direction) (system : AudioSystem) :
    Option AudioSystem :=
  if system.codecLock then none
  else
    let system := { system with running := system.running.set false dir }
    if card = AUDIO_CARD2 then
      some { system with
        external := system.external.set (halI2sClose (system.external.get dir)) dir }
    else if card = AUDIO_CARD0 then
      some { system with
        internal := system.internal.set (codecClose (system.internal.get dir)) dir }
    else some system

/-! ### The card -/

structure OpenConfig extends PcmConfig where
  rate : Nat
deriving DecidableEq, Repr

def OpenConfig.bufSize (config : OpenConfig) : Nat :=
  pcmFramesToBytes config.toPcmConfig (pcmGetBufferSize config.toPcmConfig) % 2 ^ 32

/-- Whatever is not `PCM_OUT` is recorded. -/
def pcmDirection (flags : Nat) : Direction :=
  if flags = PCM_OUT then .play else .capture

/-- What `snd_pcm_open` does behind the codec: the lock, the cache and the
occupancy. `none` waits for the lock for ever. -/
def sndPcmTake (flags : Nat) (answers : OpenAnswers) (system : AudioSystem) :
    Option (Int × AudioSystem) :=
  let dir := pcmDirection flags
  if !answers.locked then some (-1, system)
  else if system.locked.get dir then none
  else
    let system := { system with locked := system.locked.set true dir }
    if flags = PCM_OUT ∧ !answers.cache then
      some (-1, { system with
        cache := false
        locked := system.locked.set false dir })
    else
      some (0, { system with
        cache := if flags = PCM_OUT then true else system.cache
        occupied := system.occupied.set true dir })

/-- `snd_pcm_open`; `none` waits for a lock for ever. The direction of the codec
is what a byte holds of the flags. -/
def sndPcmOpen (config : OpenConfig) (card flags : Nat) (answers : OpenAnswers)
    (system : AudioSystem) : Option (Int × AudioSystem) :=
  if card = AUDIO_CARD1 ∧ flags = PCM_OUT then some (-1, system)
  else if card = AUDIO_CARD0 ∨ card = AUDIO_CARD2 then
    let devAll := if flags = PCM_OUT then AUDIO_OUT_DEV_ALL else AUDIO_IN_DEV_ALL
    let audioDev :=
      if flags = PCM_OUT then AUDIO_OUT_DEV_SPEAKER else AUDIO_IN_DEV_MAINMIC
    let isDevEnable :=
      system.isInitialize && decide (system.currentDev &&& devAll ≠ 0)
    match halCodecOpen answers
        { audioCard := card
          direction := BitVec.ofNat 8 flags
          sampleRate := config.rate
          bufSize := config.bufSize
          audioDev } system with
    | none => none
    | some (false, system) => some (-1, system)
    | some (true, system) =>
        let system :=
          if isDevEnable then system
          else { system with currentDev := system.currentDev ||| audioDev }
        sndPcmTake flags answers system
  else if !answers.locked then some (-1, system)
  else if system.locked.capture then none
  else
    some (0, { system with
      locked := system.locked.set true .capture
      occupied := system.occupied.set true .capture })

def sndPcmClose (card flags : Nat) (system : AudioSystem) :
    Option (Int × AudioSystem) :=
  let dir := pcmDirection flags
  if card = AUDIO_CARD1 ∧ flags = PCM_OUT then some (-1, system)
  else if card = AUDIO_CARD0 ∨ card = AUDIO_CARD2 then
    match halCodecClose card dir system with
    | none => none
    | some system =>
        let disabled :=
          if flags = PCM_OUT then AUDIO_OUT_DEV_ALL
          else AUDIO_IN_DEV_MAINMIC ||| AUDIO_IN_DEV_HEADPHONEMIC
        some (0, { system with
          cache := if flags = PCM_OUT then false else system.cache
          locked := system.locked.set false dir
          occupied := system.occupied.set false dir
          currentDev := system.currentDev &&& ~~~disabled })
  else
    some (0, { system with
      occupied := system.occupied.set false .capture
      locked := system.locked.set false .capture })

end XR872.Audio
