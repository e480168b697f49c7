/-
The padding of a message.

`HAL_Hash_Finish` appends its padding as data, so it goes through the word that
waits. It is longer than a word and completes it; the length then comes to
whole blocks.
-/

import XR872.Crypto.HashSplit

namespace XR872.Crypto

open BitView
open Blocks
open Buffers
open Packing
open Runs

def bswap64 (word : BitVec 64) : BitVec 64 := ofBytes 64 (toBytes word).reverse

def padSize (remainSize : Nat) : Nat :=
  if remainSize < 56 then 64 - remainSize - 8 - 1
  else 128 - remainSize - 8 - 1

theorem padSize_le (remainSize : Nat) : padSize remainSize ≤ 63 := by
  unfold padSize
  split <;> omega

/-- `HAL_Hash_Finish`: the words that go to the engine, and the handler. -/
def halHashFinish (hdl : CeHandler) (bitSize : BitVec 64) :
    List (BitVec 32) × CeHandler :=
  let size := padSize (hdl.totalSize &&& 0x3f).toNat
  let pad :=
    ((Buffer.fill 128 0).store 0 [0x80#8] (by decide)).store (1 + size)
      (toBytes bitSize) (by
        have small := padSize_le (hdl.totalSize &&& 0x3f).toNat
        rw [toBytes_length]
        omega)
  (halMd5Append hdl (pad.cells.take (size + 1 + 8))).2

def halMd5Finish (hdl : CeHandler) : List (BitVec 32) × CeHandler :=
  halHashFinish hdl (hdl.totalSize <<< 3)

def halSha1Finish (hdl : CeHandler) : List (BitVec 32) × CeHandler :=
  halHashFinish hdl (bswap64 (hdl.totalSize <<< 3))

def halSha256Finish (hdl : CeHandler) : List (BitVec 32) × CeHandler :=
  halHashFinish hdl (bswap64 (hdl.totalSize <<< 3))

inductive CeHash where
  | md5
  | sha1
  | sha256
deriving DecidableEq, Repr

namespace CeHash

def algorithm : CeHash → CeAlgorithm
  | md5 => .md5
  | sha1 => .sha1
  | sha256 => .sha256

def finish : CeHash → CeHandler → List (BitVec 32) × CeHandler
  | md5 => halMd5Finish
  | sha1 => halSha1Finish
  | sha256 => halSha256Finish

/-- The eight bytes of a length in bits: little-endian for MD5, big-endian for
SHA. Of a length that has more, they are the lowest 64 bits. -/
def lengthBytes (hash : CeHash) (bits : Nat) : List Byte :=
  match hash with
  | md5 => toBytes (BitVec.ofNat 64 bits)
  | sha1 => (toBytes (BitVec.ofNat 64 bits)).reverse
  | sha256 => (toBytes (BitVec.ofNat 64 bits)).reverse

/-- What `Finish` appends to a message. -/
def padding (hash : CeHash) (length : Nat) : List Byte :=
  [0x80] ++ List.replicate (padSize (length % 64)) 0 ++
    hash.lengthBytes (8 * length)

theorem length_padding (hash : CeHash) (length : Nat) :
    (hash.padding length).length = padSize (length % 64) + 9 := by
  have eight : (hash.lengthBytes (8 * length)).length = 8 := by
    cases hash <;> rfl
  unfold padding
  rw [List.length_append, List.length_append, List.length_replicate, eight,
    List.length_singleton]
  omega

end CeHash

/-- The bytes of a session that the engine has and that wait. -/
def CeSession.held (session : CeSession) : List Byte :=
  session.fifo.flatMap toBytes ++ session.hdl.align.waiting

/-- The session behind its `Finish`. -/
def CeSession.finish (session : CeSession) (hash : CeHash) : CeSession :=
  { session with
    hdl := (hash.finish session.hdl).2
    fifo := session.fifo ++ (hash.finish session.hdl).1 }

/-- What is fed is the message, 0x80, zeros and the length, and no longer than
whole blocks make it. -/
structure Padded (hash : CeHash) (message fed : List Byte) : Prop where
  stream : ∃ zeros, fed = message ++ [0x80] ++ List.replicate zeros 0 ++
    hash.lengthBytes (8 * message.length)
  least : IsLeast {total | 64 ∣ total ∧ message.length + 9 ≤ total} fed.length

/-! ### The padding -/

theorem padSize_block (length : Nat) :
    (length + 1 + padSize (length % 64) + 8) % 64 = 0 := by
  unfold padSize
  split <;> omega

theorem halHashFinish_eq (hdl : CeHandler) (bitSize : BitVec 64)
    (length : Nat) (total : hdl.totalSize = BitVec.ofNat 64 length) :
    halHashFinish hdl bitSize =
      (halMd5Append hdl ([0x80] ++
        List.replicate (padSize (length % 64)) 0 ++ toBytes bitSize)).2 := by
  have remain : (hdl.totalSize &&& 0x3f).toNat = length % 64 := by
    rw [total, BitVec.toNat_and, BitVec.toNat_ofNat,
      show (0x3f : BitVec 64).toNat = 2 ^ 6 - 1 from rfl,
      Nat.and_two_pow_sub_one_eq_mod]
    omega
  have small := padSize_le (length % 64)
  unfold halHashFinish
  dsimp only
  congr 2
  have front : ((Buffer.fill 128 (0 : Byte)).store 0 [0x80#8]
      (by decide)).cells.take (1 + padSize (length % 64)) =
        [0x80] ++ List.replicate (padSize (length % 64)) 0 := by
    rw [Buffer.store_cells, List.take_zero, List.nil_append, Nat.add_comm]
    change 0x80 :: ((List.replicate 128 0).drop (0 + 1)).take _ = _
    rw [List.drop_replicate, List.take_replicate, Nat.min_eq_left (by omega)]
    rfl
  rw [Buffer.store_cells]
  simp only [remain]
  rw [front, ← List.append_assoc]
  apply List.take_left'
  rw [List.length_append, List.length_append, List.length_replicate,
    toBytes_length, List.length_singleton]
  omega

/-- Data that completes the word leave nothing behind where whole words come
out. -/
theorem append_whole (hdl : CeHandler) (data : List Byte)
    (completes : 4 ≤ data.length)
    (whole : (hdl.align.wordSize + data.length) % 4 = 0) :
    (halMd5Append hdl data).2.1.flatMap toBytes = hdl.align.waiting ++ data ∧
      (halMd5Append hdl data).2.2.align.waiting = [] := by
  obtain ⟨words, size, _⟩ :=
    convey_completes hdl.align data (by omega)
  have nothing : rest 4 (hdl.align.waiting ++ data) = [] := by
    apply List.eq_nil_of_length_eq_zero
    rw [length_rest, List.length_append, hdl.align.length_waiting, whole]
  have unpacked := flatMap_toBytes_packed (hdl.align.waiting ++ data)
  rw [nothing, List.append_nil] at unpacked
  unfold halMd5Append append
  rw [if_neg (by omega)]
  constructor
  · change (halCrcHashConvey hdl.align data).1.flatMap toBytes = _
    rw [words, unpacked]
  · apply List.eq_nil_of_length_eq_zero
    rw [CeFifoAlign.length_waiting]
    exact size.trans whole

/-! ### Sessions -/

theorem length_held (session : CeSession) (counts : Counts session) :
    session.held.length = session.appended.length := by
  unfold CeSession.held
  rw [List.length_append, flatMap_toBytes_length, counts.pushed, length_packed,
    CeFifoAlign.length_waiting, counts.waits, length_rest]
  exact Nat.div_add_mod ..

/-- Where no bytes were overwritten, what is held is what was appended. -/
theorem held_of_packs (session : CeSession) (packs : Packs session) :
    session.held = session.appended := by
  unfold CeSession.held
  rw [packs.1, packs.2, flatMap_toBytes_packed]

theorem toBytes_bswap64 (word : BitVec 64) :
    toBytes (bswap64 word) = (toBytes word).reverse := by
  apply toBytes_ofBytes
  rw [List.length_reverse, toBytes_length]

theorem CeHash.finish_eq (hash : CeHash) (hdl : CeHandler) (length : Nat)
    (total : hdl.totalSize = BitVec.ofNat 64 length) :
    hash.finish hdl = (halMd5Append hdl (hash.padding length)).2 := by
  have bits : hdl.totalSize <<< 3 = BitVec.ofNat 64 (8 * length) := by
    apply BitVec.eq_of_toNat_eq
    rw [total, BitVec.toNat_shiftLeft, BitVec.toNat_ofNat, BitVec.toNat_ofNat,
      Nat.shiftLeft_eq]
    omega
  cases hash with
  | md5 =>
      change halHashFinish hdl (hdl.totalSize <<< 3) = _
      rw [halHashFinish_eq hdl _ length total, bits]
      rfl
  | sha1 =>
      change halHashFinish hdl (bswap64 (hdl.totalSize <<< 3)) = _
      rw [halHashFinish_eq hdl _ length total, toBytes_bswap64, bits]
      rfl
  | sha256 =>
      change halHashFinish hdl (bswap64 (hdl.totalSize <<< 3)) = _
      rw [halHashFinish_eq hdl _ length total, toBytes_bswap64, bits]
      rfl

/-- In any session the bytes held are padded, and nothing waits behind. -/
theorem padded_finish (hash : CeHash) (session : CeSession)
    (counts : Counts session) :
    Padded hash session.held ((session.finish hash).fifo.flatMap toBytes) ∧
      (session.finish hash).hdl.align.waiting = [] := by
  have held := length_held session counts
  have total : session.hdl.totalSize =
      BitVec.ofNat 64 session.held.length := by
    rw [held, counts.total]
  have waits : session.hdl.align.wordSize = session.held.length % 4 := by
    rw [held, counts.waits, length_rest]
  have block := padSize_block session.held.length
  have small := padSize_le (session.held.length % 64)
  have long := hash.length_padding session.held.length
  obtain ⟨fed, nothing⟩ := append_whole session.hdl
    (hash.padding session.held.length) (by omega) (by omega)
  have stream : (session.finish hash).fifo.flatMap toBytes =
      session.held ++ hash.padding session.held.length := by
    unfold CeSession.finish
    rw [hash.finish_eq session.hdl _ total]
    dsimp only
    rw [List.flatMap_append, fed]
    exact (List.append_assoc ..).symm
  refine ⟨⟨⟨padSize (session.held.length % 64), ?_⟩, ?_⟩, ?_⟩
  · rw [stream]
    unfold CeHash.padding
    simp only [List.append_assoc]
  · rw [stream, List.length_append, long]
    constructor
    · constructor <;> omega
    · rintro other ⟨whole, enough⟩
      omega
  · unfold CeSession.finish
    rw [hash.finish_eq session.hdl _ total]
    exact nothing

/-- After an `Init` and any appends, `Finish` feeds the message that engine and
handler hold with its padding. They hold as many bytes as were appended, and
just these where no append overwrote bytes that waited. -/
theorem finish_padded (hash : CeHash) (before hdl : CeHandler)
    (locks : HalStatus × HalStatus)
    (ready : hash.algorithm.init before locks = (.ok, hdl))
    (chunks : List CeChunk) :
    let session :=
      run (CeSession.step hash.algorithm) (CeSession.start hdl) chunks
    let message := (chunks.map CeChunk.data).flatten
    (Padded hash session.held ((session.finish hash).fifo.flatMap toBytes) ∧
      (session.finish hash).hdl.align.waiting = []) ∧
      session.held.length = message.length ∧
      (Along (CeSession.step hash.algorithm) Completes (CeSession.start hdl)
        chunks → session.held = message) := by
  rw [init_zero hash.algorithm before hdl locks ready]
  have counts := counts_run hash.algorithm chunks
  have appended := appended_run hash.algorithm chunks (CeSession.start .zero)
  change _ = [] ++ _ at appended
  rw [List.nil_append] at appended
  refine ⟨padded_finish hash _ counts, ?_, ?_⟩
  · rw [length_held _ counts, appended]
  · intro completes
    rw [held_of_packs _ ((packs_run_iff hash.algorithm chunks _ counts_start
      tidy_start).mpr completes), appended]

/-- Three bytes in two appends. -/
theorem finish_padded_three :
    Padded .sha1
      (run (CeSession.step .sha1) (CeSession.start .zero)
        [⟨[1], by decide, by decide⟩, ⟨[2, 3, 4], by decide, by decide⟩]).held
      (((run (CeSession.step .sha1) (CeSession.start .zero)
        [⟨[1], by decide, by decide⟩,
          ⟨[2, 3, 4], by decide, by decide⟩]).finish .sha1).fifo.flatMap
            toBytes) :=
  (finish_padded .sha1 .zero .zero (.ok, .ok) rfl _).1.1

end XR872.Crypto
