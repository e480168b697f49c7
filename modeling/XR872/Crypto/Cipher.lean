/-
What the block ciphers of the crypto engine push into it and read out of it.

Up to 300 bytes the processor moves every word itself. Longer data is moved by
two DMA channels, the whole blocks in one transfer and the padded tail in
another.
-/

import XR872.Crypto.Hash
import XR872.Library.Packing

namespace XR872.Crypto

open BitView
open Packing

inductive CeMethod where
  | aes
  | des
  | des3
deriving DecidableEq, Repr

inductive CeCryptoOp where
  | encryption
  | decryption
deriving DecidableEq, Repr

/-- The engine set up for an operation: the words fed so far, and which output
word is read. -/
abbrev CeEngine := List (BitVec 32) → Nat → BitVec 32

/-- What an operation does at the engine and to the output: the length it
announces, the words it feeds, how many it reads, and where it writes what. -/
structure CeIo where
  length : BitVec 32
  fed : List (BitVec 32)
  taken : Nat
  written : List (Nat × Byte)
deriving DecidableEq, Repr

def storedWord (offset : Nat) (word : BitVec 32) : List (Nat × Byte) :=
  (List.range 4).map fun index =>
    (offset + index, word.extractLsb' (8 * index) 8)

namespace CeIo

/-- `CE_Crypto_SetLength`. -/
def setLength (len : Nat) : CeIo :=
  { length := BitVec.ofNat 32 len, fed := [], taken := 0, written := [] }

/-- The loop that feeds `size` bytes, a word at a time. -/
def feed (io : CeIo) (data : List Byte) (start size : Nat) : CeIo :=
  { io with
    fed := io.fed ++ (List.range (size / 4)).map fun index =>
      ofBytes 32 ((data.drop (start + 4 * index)).take 4) }

/-- The loop that reads `size` bytes, a word at a time. -/
def take (engine : CeEngine) (io : CeIo) (offset size : Nat) : CeIo :=
  { io with
    taken := io.taken + size / 4
    written := io.written ++ (List.range (size / 4)).flatMap fun index =>
      storedWord (offset + 4 * index) (engine io.fed (io.taken + index)) }

end CeIo

/-- A transfer by both DMA channels: what the wait for its end is answered,
and what either channel had moved by then. -/
structure DmaTransfer where
  answer : HalStatus
  input : Nat
  output : Nat
deriving DecidableEq, Repr

/-- Both channels started for `size` bytes, until the wait is over. -/
def CeIo.transfer (engine : CeEngine) (io : CeIo) (data : List Byte)
    (offset size : Nat) (transfer : DmaTransfer) : CeIo :=
  let fed := io.fed ++ packed (data.take (min size transfer.input))
  let output := min size transfer.output
  { io with
    fed
    taken := io.taken + output / 4
    written := io.written ++ (List.range output).map fun index =>
      (offset + index, (engine fed (io.taken + index / 4)).extractLsb'
        (8 * (index % 4)) 8) }

/-- What an operation is answered: its mutex, the two channel requests, and the
transfers. -/
structure CeAnswers where
  lock : HalStatus
  outputChannel : Bool
  inputChannel : Bool
  first : DmaTransfer
  second : DmaTransfer
deriving DecidableEq, Repr

def halCryptoInitDMA (answers : CeAnswers) : HalStatus :=
  if !answers.outputChannel then .invalid
  else if !answers.inputChannel then .invalid
  else .ok

section

variable (engine : CeEngine) (input : List Byte) (blockSize : Nat)

def alignLen : Nat := input.length - input.length % blockSize

def remainLen : Nat := input.length % blockSize

/-- `padding[16]`, with the incomplete block copied to its front. -/
def padding : List Byte :=
  input.drop (alignLen input blockSize) ++
    List.replicate (16 - remainLen input blockSize) 0

def announced : Nat :=
  if remainLen input blockSize ≠ 0 then alignLen input blockSize + blockSize
  else alignLen input blockSize

def conveyBlock (io : CeIo) (index : Nat) : CeIo :=
  (io.feed input (blockSize * index) blockSize).take engine
    (blockSize * index) blockSize

def conveyBlocks (io : CeIo) (count : Nat) : CeIo :=
  (List.range count).foldl (conveyBlock engine input blockSize) io

def conveyCpu (io : CeIo) : CeIo :=
  let io := conveyBlocks engine input blockSize io
    (alignLen input blockSize / blockSize)
  if remainLen input blockSize ≠ 0 then
    -- both loops run to `sizeof(padding)`
    (io.feed (padding input blockSize) 0 16).take engine
      (alignLen input blockSize) 16
  else io

def conveyDma (answers : CeAnswers) (io : CeIo) : HalStatus × CeIo :=
  let (ret, io) :=
    if alignLen input blockSize ≠ 0 then
      (answers.first.answer, io.transfer engine input 0
        (alignLen input blockSize) answers.first)
    else (.ok, io)
  if ret ≠ .ok then (ret, io)
  else if remainLen input blockSize ≠ 0 then
    (answers.second.answer, io.transfer engine (padding input blockSize)
      (alignLen input blockSize) blockSize answers.second)
  else (.ok, io)

def halCryptoConvey (answers : CeAnswers) : HalStatus × CeIo :=
  let io := CeIo.setLength (announced input blockSize)
  if 300 < input.length then
    if halCryptoInitDMA answers ≠ .ok then (halCryptoInitDMA answers, io)
    else conveyDma engine input blockSize answers io
  else (.ok, conveyCpu engine input blockSize io)

/-- What the six operations share; nothing is conveyed without the mutex. -/
def halCrypt (answers : CeAnswers) : HalStatus × Option CeIo :=
  if input.length = 0 then (.invalid, none)
  else if answers.lock ≠ .ok then (answers.lock, none)
  else
    -- what the convey returns is not looked at
    (.ok, some (halCryptoConvey engine input blockSize answers).2)

end

def aesBlockSize : Nat := 16

def desBlockSize : Nat := 8

def des3BlockSize : Nat := 8

/-- The engine as `CE_Crypto_Init` sets it up, for a key, a mode and an IV. -/
abbrev CeUnit := CeMethod → CeCryptoOp → CeEngine

section

variable (ce : CeUnit) (data : List Byte) (answers : CeAnswers)

def halAesEncrypt : HalStatus × Option CeIo :=
  halCrypt (ce .aes .encryption) data aesBlockSize answers

def halAesDecrypt : HalStatus × Option CeIo :=
  halCrypt (ce .aes .decryption) data aesBlockSize answers

def halDesEncrypt : HalStatus × Option CeIo :=
  halCrypt (ce .des .encryption) data desBlockSize answers

def halDesDecrypt : HalStatus × Option CeIo :=
  halCrypt (ce .des .decryption) data desBlockSize answers

def hal3desEncrypt : HalStatus × Option CeIo :=
  halCrypt (ce .des3 .encryption) data des3BlockSize answers

def hal3desDecrypt : HalStatus × Option CeIo :=
  halCrypt (ce .des3 .decryption) data 8 answers

end

/-! ### The operations as a family -/

def CeMethod.blockSize : CeMethod → Nat
  | .aes => 16
  | .des => 8
  | .des3 => 8

def halCipher (ce : CeUnit) (data : List Byte) (answers : CeAnswers) :
    CeMethod → CeCryptoOp → HalStatus × Option CeIo
  | .aes, .encryption => halAesEncrypt ce data answers
  | .aes, .decryption => halAesDecrypt ce data answers
  | .des, .encryption => halDesEncrypt ce data answers
  | .des, .decryption => halDesDecrypt ce data answers
  | .des3, .encryption => hal3desEncrypt ce data answers
  | .des3, .decryption => hal3desDecrypt ce data answers

theorem halCipher_eq (ce : CeUnit) (data : List Byte) (answers : CeAnswers)
    (method : CeMethod) (op : CeCryptoOp) :
    halCipher ce data answers method op =
      halCrypt (ce method op) data method.blockSize answers := by
  cases method <;> cases op <;> rfl

end XR872.Crypto
