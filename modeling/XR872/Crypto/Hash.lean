/-
What the CRC and hash functions of the crypto engine push into its FIFO.

The engine takes words. Bytes that do not fill a word stay in the handler until
the next call completes it.
-/

import XR872.Library.BitView
import XR872.Library.Buffer

namespace XR872.Crypto

open BitView
open Buffers

inductive HalStatus where
  | ok
  | error
  | busy
  | timeout
  | invalid
deriving DecidableEq, Repr

structure CeFifoAlign where
  word : Buffer Byte 4
  wordSize : Nat
  part : wordSize < 4
deriving DecidableEq, Repr

namespace CeFifoAlign

def empty : CeFifoAlign :=
  { word := Buffer.fill 4 0, wordSize := 0, part := by decide }

/-- The bytes that wait for their word to be completed. -/
def waiting (align : CeFifoAlign) : List Byte :=
  align.word.cells.take align.wordSize

end CeFifoAlign

/-- `HAL_CRC_Hash_Convey` in CPU mode: the words that go to the engine, and
what stays. -/
def halCrcHashConvey (align : CeFifoAlign) (data : List Byte) :
    List (BitVec 32) × CeFifoAlign :=
  let bufLeft := 4 - align.wordSize
  if short : data.length < bufLeft then
    -- copied to the front of the word, wherever its bytes end
    ([], {
      word := align.word.store 0 data (by omega)
      wordSize := align.wordSize + data.length
      part := by omega })
  else
    let word := align.word.store align.wordSize (data.take bufLeft) (by
      have part := align.part
      rw [List.length_take]
      omega)
    let wordSize := (data.length - bufLeft) % 4
    let alignLen := data.length - bufLeft - wordSize
    (ofBytes 32 word.cells :: (List.range (alignLen / 4)).map fun index =>
        ofBytes 32 ((data.drop (bufLeft + 4 * index)).take 4), {
      word := (Buffer.fill 4 0).store 0 (data.drop (data.length - wordSize)) (by
        have small := Nat.mod_lt (data.length - bufLeft) (by decide : 0 < 4)
        rw [List.length_drop]
        omega)
      wordSize
      part := Nat.mod_lt _ (by decide) })

/-- `CE_CRC_Handler` and `CE_MD5_Handler`. -/
structure CeHandler where
  totalSize : BitVec 64
  align : CeFifoAlign
deriving DecidableEq, Repr

def CeHandler.zero : CeHandler := { totalSize := 0, align := .empty }

/-- What both appends do. -/
def append (hdl : CeHandler) (data : List Byte) :
    HalStatus × List (BitVec 32) × CeHandler :=
  if data.length = 0 then (.invalid, [], hdl)
  else
    let (words, align) := halCrcHashConvey hdl.align data
    (.ok, words,
      { totalSize := hdl.totalSize + BitVec.ofNat 64 data.length, align })

def halCrcAppend : CeHandler → List Byte →
    HalStatus × List (BitVec 32) × CeHandler := append

def halMd5Append : CeHandler → List Byte →
    HalStatus × List (BitVec 32) × CeHandler := append

def halSha1Append : CeHandler → List Byte →
    HalStatus × List (BitVec 32) × CeHandler := halMd5Append

def halSha256Append : CeHandler → List Byte →
    HalStatus × List (BitVec 32) × CeHandler := halMd5Append

/-! ### Starting a session -/

/-- What `HAL_MD5_Init` and its kin do to the handler; `lock` is the answer of
`HAL_MutexLock`. -/
def hashInit (hdl : CeHandler) (lock : HalStatus) : HalStatus × CeHandler :=
  if lock ≠ .ok then (lock, hdl) else (.ok, .zero)

def halMd5Init : CeHandler → HalStatus → HalStatus × CeHandler := hashInit

def halSha1Init : CeHandler → HalStatus → HalStatus × CeHandler := hashInit

def halSha256Init : CeHandler → HalStatus → HalStatus × CeHandler := hashInit

def halCrcInit1 (hdl : CeHandler) (totalSize : BitVec 32) (lock : HalStatus) :
    HalStatus × CeHandler :=
  if totalSize = 0 then (.invalid, hdl)
  else if lock ≠ .ok then (lock, hdl)
  else (.ok, { hdl with align := .empty })

/-- The handler behind `HAL_CRC_Finish`. -/
def halCrcFinish (hdl : CeHandler) : CeHandler :=
  (halCrcAppend hdl (List.replicate ((4 - hdl.align.wordSize) % 4) 0)).2.2

/-- `HAL_CRC_Init` runs a session of its own first, with the first byte of the
handler as data. -/
def halCrcInit (hdl : CeHandler) (totalSize : BitVec 32)
    (locks : HalStatus × HalStatus) : HalStatus × CeHandler :=
  let hdl := (halCrcInit1 hdl 1 locks.1).2
  let hdl := (halCrcAppend hdl [hdl.totalSize.setWidth 8]).2.2
  let hdl := { halCrcFinish hdl with totalSize := 0, align := .empty }
  halCrcInit1 hdl totalSize locks.2

inductive CeAlgorithm where
  | crc (totalSize : BitVec 32)
  | md5
  | sha1
  | sha256
deriving DecidableEq, Repr

/-- The `Init` of an algorithm, from whatever the handler held before. -/
def CeAlgorithm.init (algorithm : CeAlgorithm) (hdl : CeHandler)
    (locks : HalStatus × HalStatus) : HalStatus × CeHandler :=
  match algorithm with
  | crc totalSize => halCrcInit hdl totalSize locks
  | md5 => halMd5Init hdl locks.2
  | sha1 => halSha1Init hdl locks.2
  | sha256 => halSha256Init hdl locks.2

def CeAlgorithm.append : CeAlgorithm → CeHandler → List Byte →
    HalStatus × List (BitVec 32) × CeHandler
  | crc _ => halCrcAppend
  | md5 => halMd5Append
  | sha1 => halSha1Append
  | sha256 => halSha256Append

/-! ### Sessions -/

/-- The data of one call: not empty, and of a length that is a `uint32_t`. -/
structure CeChunk where
  data : List Byte
  nonempty : data ≠ []
  uint32 : data.length < 2 ^ 32
deriving DecidableEq, Repr

/-- A session: the handler, what was pushed, and what was appended. -/
structure CeSession where
  hdl : CeHandler
  fifo : List (BitVec 32)
  appended : List Byte
deriving DecidableEq, Repr

namespace CeSession

def start (hdl : CeHandler) : CeSession := { hdl, fifo := [], appended := [] }

def step (algorithm : CeAlgorithm) (session : CeSession) (chunk : CeChunk) :
    CeSession :=
  let (_, words, hdl) := algorithm.append session.hdl chunk.data
  { hdl
    fifo := session.fifo ++ words
    appended := session.appended ++ chunk.data }

end CeSession

end XR872.Crypto
