/-
Writing to a sound card.

The driver takes whole halves of its buffer only. What is left of a write waits
in a cache of that size for the next one.
-/

import XR872.Library.BitView
import XR872.Library.Memory

namespace XR872.Audio

open BitView
open Memories

inductive PcmFormat where
  | s16Le
  | s24Le
  | s32Le
  | other
deriving DecidableEq, Repr

def pcmFormatToBits : PcmFormat → Nat
  | .s32Le => 32
  | .s24Le => 32
  | .s16Le => 16
  | .other => 0

/-- `struct pcm_config`, as far as the size of a write depends on it. -/
structure PcmConfig where
  channels : Nat
  format : PcmFormat
  periodSize : Nat
  periodCount : Nat
deriving DecidableEq, Repr

def pcmGetBufferSize (config : PcmConfig) : Nat :=
  config.periodCount * config.periodSize

def pcmFramesToBytes (config : PcmConfig) (frames : Nat) : Nat :=
  frames * config.channels * (pcmFormatToBits config.format / 8)

/-- `buf_size`: half of the driver's buffer. -/
def bufSize (config : PcmConfig) : Nat :=
  pcmFramesToBytes config (pcmGetBufferSize config) / 2

/-- A buffer that is not empty. -/
abbrev PcmStream := { config : PcmConfig // 0 < bufSize config }

/-- No object is larger than `PTRDIFF_MAX`. -/
abbrev PcmData := { data : List Byte // data.length < 2 ^ 31 }

/-- What `HAL_CODEC_Write_DMA` meets, and what it returns if it takes
nothing. -/
structure CodecAnswer where
  suspended : Bool
  refusal : Int
  nothing : refusal ≤ 0

/-- The bytes handed to the driver so far, with the padding behind them, those
accepted from the callers, and the ranges of the cache that were written. -/
structure PlayPriv where
  cache : Nat → Byte
  allocated : Bool
  length : Nat
  handed : List (List Byte × Nat)
  accepted : List Byte
  copies : List (Nat × Nat)

/-- Behind `snd_pcm_open`. -/
def PlayPriv.opened (cache : Nat → Byte) : PlayPriv :=
  { cache, allocated := true, length := 0, handed := [], accepted := []
    copies := [] }

section

variable (size : Nat)

def halCodecWriteDma (answer : CodecAnswer) (data : List Byte) :
    Int × List Byte :=
  if answer.suspended ∨ data.length < size then (answer.refusal, [])
  else
    let taken := data.length / size * size
    ((taken : Int), data.take taken)

/-- `memcpy` to the cache. -/
def copyIn (priv : PlayPriv) (offset count : Nat) (data : List Byte) :
    PlayPriv :=
  { priv with
    cache := store priv.cache offset (data.take count)
    copies := priv.copies ++ [(offset, count)] }

/-- The whole cache to the driver, so many bytes of it padding. The answer is
not asked for. -/
def pushCache (answer : CodecAnswer) (padding : Nat) (priv : PlayPriv) :
    PlayPriv :=
  { priv with
    handed := priv.handed ++
      [((halCodecWriteDma size answer (load priv.cache 0 size)).2, padding)] }

/-- The second half of `snd_pcm_write`: the data to the driver, and what is left
to the cache. -/
def writeDirect (answer : CodecAnswer) (data : List Byte) (priv : PlayPriv) :
    PlayPriv :=
  let (ret, taken) := halCodecWriteDma size answer data
  let priv := { priv with handed := priv.handed ++ [(taken, 0)] }
  if 0 < ret ∧ ret ≠ data.length then
    { copyIn priv 0 (data.length - ret.toNat) (data.drop ret.toNat) with
      length := data.length - ret.toNat }
  else if ret = data.length then { priv with length := 0 }
  else { copyIn priv 0 data.length data with length := data.length }

/-- `snd_pcm_write`, by what the mutex and the driver answer. -/
def sndPcmWrite (locked : Bool) (data : List Byte) (push direct : CodecAnswer)
    (priv : PlayPriv) : Int × PlayPriv :=
  if !locked then (-1, priv)
  else if priv.length ≠ 0 then
    -- not negative while the length is one inside the cache
    let len := size - priv.length
    if !priv.allocated then (-1, priv)
    else
      let accepted := priv.accepted ++ data
      if data.length < len then
        (data.length, {
          copyIn priv priv.length data.length data with
          length := priv.length + data.length
          accepted })
      else
        let priv := pushCache size push 0 (copyIn priv priv.length len data)
        (data.length,
          writeDirect size direct (data.drop len)
            { priv with length := 0, accepted })
  else
    (data.length,
      writeDirect size direct data
        { priv with accepted := priv.accepted ++ data })

/-- `memset` of the cache. -/
def clearCache (offset count : Nat) (priv : PlayPriv) : PlayPriv :=
  copyIn priv offset count (List.replicate count 0)

def sndPcmFlush (push first second : CodecAnswer) (priv : PlayPriv) :
    Int × PlayPriv :=
  if !priv.allocated then (-1, priv)
  else
    let priv :=
      if priv.length ≠ 0 then
        let padding := size - priv.length
        { pushCache size push padding
            (clearCache priv.length padding priv) with length := 0 }
      else priv
    let priv := clearCache 0 size priv
    (0, pushCache size second size (pushCache size first size priv))

inductive PcmCall where
  | write (locked : Bool) (data : PcmData) (push direct : CodecAnswer)
  | flush (push first second : CodecAnswer)

def pcmStep (priv : PlayPriv) : PcmCall → PlayPriv
  | .write locked data push direct =>
      (sndPcmWrite size locked data.val push direct priv).2
  | .flush push first second => (sndPcmFlush size push first second priv).2

end

end XR872.Audio
