/-
The partitions of the JPEG encoder's output ring.

The encoder writes a frame around the ring and raises an interrupt for each
partition it has filled. The handler copies that partition, and with the finish
interrupt what is left of the frame, to one buffer. Its place in the ring is a
partition counter together with an offset.
-/

import XR872.Library.BitView
import XR872.Library.Memory
import XR872.Library.Run

namespace XR872.Jpeg

open BitView
open Memories
open Runs

/-- Arithmetic of `uint32_t`. -/
def u32 (value : Int) : Nat := (value % 2 ^ 32).toNat

def ALIGN_32B (value : Nat) : Nat := (value + 31) / 32 * 32

/-- The fields of `CSI_JPEG_Priv` for the partitions. -/
structure Priv where
  memPartNum : Nat
  memPartSize : Nat
  memPartCnt : Nat
  memPartOffSet : Nat
  memCurSize : Nat
  memPartDstBuf : Nat → Byte

/-- The configuration, with partitioning and the encoder enabled. -/
structure JPEG_ConfigParam where
  outstreamMemSize : BitVec 32
  memPartNum : Fin 4
  memPartBuf : Nat → Byte

/-- The counter and the copied size are not set here: they are zero from the
start. -/
def HAL_JPEG_Config (cfg : JPEG_ConfigParam) : Priv :=
  let memPartNum := 2 ^ (cfg.memPartNum.val + 1)
  { memPartNum := memPartNum
    memPartSize := cfg.outstreamMemSize.toNat / memPartNum
    memPartCnt := 0
    memPartOffSet := 0
    memCurSize := 0
    memPartDstBuf := cfg.memPartBuf }

def Priv.ring (priv : Priv) : Nat := priv.memPartNum * priv.memPartSize

/-- A `memcpy` out of the ring, with the two sides of the difference that its
length was computed as. -/
structure Copy where
  minuend : Nat
  subtrahend : Nat
  source : Nat
deriving DecidableEq, Repr

def Copy.length (copy : Copy) : Nat :=
  u32 ((copy.minuend : Int) - copy.subtrahend)

/-! ### The interrupt handler -/

def partitionCopy (priv : Priv) : Copy :=
  { minuend := (priv.memPartCnt + 1) * priv.memPartSize
    subtrahend := priv.memPartOffSet
    source := priv.memPartOffSet }

/-- `JPEG_MEM_PART_INT` is set. -/
def partitionInterrupt (stream : Nat → Byte) (priv : Priv) : Priv :=
  let curPartLen := (partitionCopy priv).length
  let wraps := priv.memPartNum ≤ u32 (priv.memPartCnt + 1)
  { priv with
    memPartDstBuf := store priv.memPartDstBuf priv.memCurSize
      (load stream priv.memPartOffSet curPartLen)
    memCurSize := u32 (priv.memCurSize + curPartLen)
    memPartCnt := if wraps then 0 else u32 (priv.memPartCnt + 1)
    memPartOffSet :=
      if wraps then 0 else u32 (priv.memPartOffSet + curPartLen) }

/-- The length of a frame of this many bits: whole words. -/
def encodeLen (hardwareOffset : Nat) : Nat :=
  (u32 (hardwareOffset + 7) / 8 + 3) / 4 * 4

def restCopy (priv : Priv) (encodeLen : Nat) : Copy :=
  { minuend := encodeLen
    subtrahend := priv.memCurSize
    source := priv.memPartOffSet }

/-- The finish interrupt, where no more than the frame has been copied. -/
def copyRest (stream : Nat → Byte) (priv : Priv) (encodeLen : Nat) : Priv :=
  let curPartLen := (restCopy priv encodeLen).length
  { priv with
    memPartDstBuf := store priv.memPartDstBuf priv.memCurSize
      (load stream priv.memPartOffSet curPartLen)
    memCurSize := 0
    memPartOffSet :=
      u32 (ALIGN_32B (u32 (priv.memPartOffSet + curPartLen))) }

/-- What the handler did: the copies in order, and the length it passed to the
callback. -/
structure Served where
  priv : Priv
  copies : List Copy
  cb : Option Nat

def CSI_JPEG_IRQHandler (stream : Nat → Byte) (partInt finishInt : Bool)
    (hardwareOffset : Nat) (priv : Priv) : Served :=
  let copied := if partInt then partitionInterrupt stream priv else priv
  let copies := if partInt then [partitionCopy priv] else []
  if finishInt then
    let len := encodeLen hardwareOffset
    if copied.memCurSize ≤ len then
      { priv := copyRest stream copied len
        copies := copies ++ [restCopy copied len]
        cb := some len }
    else
      { priv := copied
        copies := copies
        cb := some len }
  else
    { priv := copied
      copies := copies
      cb := none }

/-! ### The encoder -/

/-- A frame as the encoder writes it, in whole words. -/
structure Frame where
  bits : Nat
  bytes : List Byte
  whole : bytes.length = ((bits + 7) / 8 + 3) / 4 * 4

def Frame.empty : Frame := { bits := 0, bytes := [], whole := rfl }

/-- The encoder, with the two interrupts it has pending and the place in the
ring at which its last frame ended. -/
structure Encoder where
  stream : Nat → Byte
  frame : Frame
  start : Nat
  written : Nat
  ended : Nat
  encoding : Bool
  partInt : Bool
  finishInt : Bool

def Encoder.initial (stream : Nat → Byte) : Encoder :=
  { stream := stream
    frame := Frame.empty
    start := 0
    written := 0
    ended := 0
    encoding := false
    partInt := false
    finishInt := false }

/-- The place in the ring of a byte of the frame. -/
def Encoder.place (encoder : Encoder) (ring index : Nat) : Nat :=
  (encoder.start + index) % ring

def Encoder.Wrote (encoder : Encoder) (ring address : Nat) : Prop :=
  address < ring ∧
    ∃ index, index < encoder.written ∧ encoder.place ring index = address

instance (encoder : Encoder) (ring address : Nat) :
    Decidable (encoder.Wrote ring address) :=
  inferInstanceAs (Decidable (_ ∧ ∃ _, _ ∧ _))

/-- A frame starts at the aligned place behind the one before it, or at the
start of the ring when that is outside. -/
def Encoder.begin_ (encoder : Encoder) (ring : Nat) (frame : Frame) : Encoder :=
  if encoder.encoding then encoder
  else
    { encoder with
      frame := frame
      start :=
        if ALIGN_32B encoder.ended < ring then ALIGN_32B encoder.ended else 0
      written := 0
      encoding := true }

def Encoder.Fills (encoder : Encoder) (size : Nat) : Prop :=
  (encoder.start + encoder.written + 1) % size = 0

instance (encoder : Encoder) (size : Nat) : Decidable (encoder.Fills size) :=
  inferInstanceAs (Decidable (_ = _))

/-- One more byte. A second partition is filled only when the handler has seen
to the first: it acknowledges each one to the encoder. -/
def Encoder.write (encoder : Encoder) (ring size : Nat) : Encoder :=
  if encoder.encoding ∧ encoder.written < encoder.frame.bytes.length ∧
      ¬ (encoder.partInt ∧ encoder.Fills size) then
    { encoder with
      stream := Function.update encoder.stream
        (encoder.place ring encoder.written)
        (encoder.frame.bytes.getD encoder.written 0)
      written := encoder.written + 1
      partInt := encoder.partInt || decide (encoder.Fills size) }
  else encoder

def Encoder.finish (encoder : Encoder) : Encoder :=
  { encoder with
    finishInt := encoder.finishInt ||
      (encoder.encoding &&
        decide (encoder.written = encoder.frame.bytes.length)) }

/-- The interrupts are cleared; behind the finish interrupt the next frame may
begin. -/
def Encoder.clear (encoder : Encoder) (ring : Nat) : Encoder :=
  if encoder.finishInt then
    { encoder with
      ended := encoder.place ring encoder.written
      encoding := false
      partInt := false
      finishInt := false }
  else { encoder with partInt := false }

/-! ### The two together -/

structure Capture where
  priv : Priv
  encoder : Encoder

inductive Event where
  | begin_ (frame : Frame)
  | write
  | finish
  | irq

def Capture.configured (cfg : JPEG_ConfigParam) (stream : Nat → Byte) :
    Capture :=
  { priv := HAL_JPEG_Config cfg
    encoder := Encoder.initial stream }

def Capture.served (capture : Capture) : Served :=
  CSI_JPEG_IRQHandler capture.encoder.stream capture.encoder.partInt
    capture.encoder.finishInt (capture.encoder.frame.bits % 2 ^ 32)
    capture.priv

def step (capture : Capture) : Event → Capture
  | .begin_ frame =>
      { capture with
        encoder := capture.encoder.begin_ capture.priv.ring frame }
  | .write =>
      { capture with
        encoder := capture.encoder.write capture.priv.ring
          capture.priv.memPartSize }
  | .finish => { capture with encoder := capture.encoder.finish }
  | .irq =>
      { priv := capture.served.priv
        encoder := capture.encoder.clear capture.priv.ring }

/-- The length of the copy did not wrap, and all it reads was written for the
current frame. -/
def Copy.Sound (encoder : Encoder) (ring : Nat) (copy : Copy) : Prop :=
  copy.subtrahend ≤ copy.minuend ∧
    ∀ index, index < copy.length → encoder.Wrote ring (copy.source + index)

instance (encoder : Encoder) (ring : Nat) (copy : Copy) :
    Decidable (copy.Sound encoder ring) :=
  inferInstanceAs (Decidable (_ ∧ ∀ _, _ → _))

/-- The copies of the handler are sound, and a callback finds the frame in the
buffer. -/
def Faithful (capture : Capture) : Event → Prop
  | .irq =>
      (∀ copy ∈ capture.served.copies,
        copy.Sound capture.encoder capture.priv.ring) ∧
      ∀ len ∈ capture.served.cb,
        load capture.served.priv.memPartDstBuf 0 len =
          capture.encoder.frame.bytes
  | _ => True

instance (capture : Capture) (event : Event) :
    Decidable (Faithful capture event) :=
  match event with
  | .irq => inferInstanceAs (Decidable ((∀ _ ∈ _, _) ∧ ∀ _ ∈ _, _))
  | .begin_ _ => isTrue trivial
  | .write => isTrue trivial
  | .finish => isTrue trivial

/-- The alignment behind the frame before did not leave the partition that the
frame ended in, and the number of bits can be rounded up. -/
def Clean (capture : Capture) : Event → Prop
  | .begin_ frame =>
      capture.encoder.encoding = false →
        ALIGN_32B capture.encoder.ended <
          (capture.encoder.ended / capture.priv.memPartSize + 1) *
            capture.priv.memPartSize ∧
          frame.bits + 7 < 2 ^ 32
  | _ => True

instance (capture : Capture) (event : Event) :
    Decidable (Clean capture event) :=
  match event with
  | .begin_ _ => inferInstanceAs (Decidable (_ → _ ∧ _))
  | .write => isTrue trivial
  | .finish => isTrue trivial
  | .irq => isTrue trivial

end XR872.Jpeg
