/-
The two ways through the block ciphers.

Both are measured against the input padded with zeros to whole blocks: it is
what the engine is to be fed, and its length is what is announced and written.
-/

import XR872.Crypto.Cipher

namespace XR872.Crypto

open BitView
open Blocks
open Packing

def padded (input : List Byte) (blockSize : Nat) : List Byte :=
  input ++ List.replicate
    ((blockSize - input.length % blockSize) % blockSize) 0

/-- Every block went through: the engine was fed the padded input, and as much
was written, each byte once. -/
def Conveyed (input : List Byte) (blockSize : Nat) (io : CeIo) : Prop :=
  io.fed = packed (padded input blockSize) ∧
    io.written.map Prod.fst = List.range (padded input blockSize).length

instance (input : List Byte) (blockSize : Nat) (io : CeIo) :
    Decidable (Conveyed input blockSize io) :=
  inferInstanceAs (Decidable (_ ∧ _))

/-- What is asked of `HAL_Crypto_Convey`: it announces the length of what it
feeds, it returns `HAL_OK` with all blocks through, and it never writes behind
the last block. -/
def ConveyRight (engine : CeEngine) (input : List Byte) (blockSize : Nat)
    (answers : CeAnswers) : Prop :=
  let (ret, io) := halCryptoConvey engine input blockSize answers
  io.length.toNat = (padded input blockSize).length ∧
    (ret = .ok → Conveyed input blockSize io) ∧
    ∀ place ∈ io.written.map Prod.fst, place < (padded input blockSize).length

/-- And of the operations: `HAL_OK` means that every block went through. -/
def CipherRight (ce : CeUnit) (input : List Byte) (answers : CeAnswers)
    (method : CeMethod) (op : CeCryptoOp) : Prop :=
  ConveyRight (ce method op) input method.blockSize answers ∧
    ((halCipher ce input answers method op).1 = .ok →
      ∃ io ∈ (halCipher ce input answers method op).2,
        Conveyed input method.blockSize io)

/-- All that is waited for is answered `HAL_OK`. -/
def Served (input : List Byte) (blockSize : Nat) (answers : CeAnswers) : Prop :=
  halCryptoInitDMA answers = .ok ∧ answers.first.answer = .ok ∧
    (remainLen input blockSize ≠ 0 → answers.second.answer = .ok)

def Moves (input : List Byte) (blockSize : Nat) (answers : CeAnswers) : Prop :=
  halCryptoInitDMA answers = .ok ∧
    (alignLen input blockSize ≤ answers.first.input ∧
      alignLen input blockSize ≤ answers.first.output) ∧
    (remainLen input blockSize ≠ 0 →
      answers.first.answer = .ok ∧
        blockSize ≤ answers.second.input ∧ blockSize ≤ answers.second.output)

/-- When the ciphers do what they are asked. -/
structure Sound (input : List Byte) (blockSize : Nat) (answers : CeAnswers) :
    Prop where
  counted : (padded input blockSize).length < 2 ^ 32
  tail : input.length ≤ 300 → blockSize = 16 ∨ input.length % blockSize = 0
  moved : 300 < input.length →
    Served input blockSize answers ∨ answers.lock = .ok →
      Moves input blockSize answers

theorem alignLen_le (input : List Byte) (blockSize : Nat) :
    alignLen input blockSize ≤ input.length :=
  Nat.sub_le _ _

section

variable (engine : CeEngine) (input : List Byte) {blockSize : Nat}
  (size : blockSize = 8 ∨ blockSize = 16)

/-! ### The padded input -/

section

include size

theorem alignLen_mod : alignLen input blockSize % blockSize = 0 := by
  unfold alignLen
  rcases size with rfl | rfl <;> omega

theorem alignLen_words : alignLen input blockSize % 4 = 0 := by
  unfold alignLen
  rcases size with rfl | rfl <;> omega

theorem length_padding : (padding input blockSize).length = 16 := by
  unfold padding alignLen remainLen
  rw [List.length_append, List.length_drop, List.length_replicate]
  rcases size with rfl | rfl <;> omega

theorem padded_eq :
    padded input blockSize =
      input.take (alignLen input blockSize) ++
        if remainLen input blockSize ≠ 0 then
          (padding input blockSize).take blockSize
        else [] := by
  unfold padded
  by_cases whole : remainLen input blockSize = 0
  · have all : alignLen input blockSize = input.length := by
      unfold alignLen
      unfold remainLen at whole
      omega
    have none : (blockSize - input.length % blockSize) % blockSize = 0 := by
      unfold remainLen at whole
      rw [whole, Nat.sub_zero, Nat.mod_self]
    rw [if_neg (not_not_intro whole), all, List.take_length, none]
    rfl
  · have cut : (input.drop (alignLen input blockSize)).length =
        remainLen input blockSize := by
      unfold alignLen remainLen
      rw [List.length_drop]
      rcases size with rfl | rfl <;> omega
    have gap : (blockSize - input.length % blockSize) % blockSize =
        min (blockSize - remainLen input blockSize)
          (16 - remainLen input blockSize) := by
      unfold remainLen at whole ⊢
      rcases size with rfl | rfl <;> omega
    have small : (input.drop (alignLen input blockSize)).length ≤
        blockSize := by
      rw [cut]
      unfold remainLen
      rcases size with rfl | rfl <;> omega
    rw [if_pos whole]
    unfold padding
    rw [List.take_append, cut, List.take_replicate,
      List.take_of_length_le small, ← List.append_assoc,
      List.take_append_drop, gap]

theorem length_padded :
    (padded input blockSize).length = announced input blockSize := by
  have fits : blockSize ≤ 16 := by rcases size with rfl | rfl <;> decide
  have long := length_padding input size
  have within := alignLen_le input blockSize
  rw [padded_eq input size]
  unfold announced
  split
  · rw [List.length_append, List.length_take, List.length_take, long]
    omega
  · rw [List.append_nil, List.length_take]
    omega

theorem packed_padded :
    packed (padded input blockSize) =
      packed (input.take (alignLen input blockSize)) ++
        if remainLen input blockSize ≠ 0 then
          packed ((padding input blockSize).take blockSize)
        else [] := by
  have whole : (input.take (alignLen input blockSize)).length % 4 = 0 := by
    have within := alignLen_le input blockSize
    rw [List.length_take, Nat.min_eq_left within]
    exact alignLen_words input size
  rw [padded_eq input size, packed_append_words _ _ whole]
  split
  · rfl
  · rfl

end

/-! ### Places -/

theorem places_words (offset count : Nat) (word : Nat → BitVec 32) :
    ((List.range count).flatMap fun index =>
        storedWord (offset + 4 * index) (word index)).map Prod.fst =
      (List.range (4 * count)).map (offset + ·) := by
  induction count with
  | zero => rfl
  | succ count ih =>
      rw [List.range_succ, List.flatMap_append, List.map_append, ih,
        Nat.mul_succ, List.range_add, List.map_append, List.map_map]
      congr 1

theorem places_take (io : CeIo) (offset bytes : Nat)
    (whole : bytes % 4 = 0) :
    (io.take engine offset bytes).written.map Prod.fst =
      io.written.map Prod.fst ++ (List.range bytes).map (offset + ·) := by
  have words : 4 * (bytes / 4) = bytes := by omega
  unfold CeIo.take
  rw [List.map_append, places_words offset (bytes / 4)
    fun index => engine io.fed (io.taken + index), words]

theorem range_extend (first second : Nat) :
    List.range first ++ (List.range second).map (first + ·) =
      List.range (first + second) :=
  List.range_add.symm

/-! ### The CPU mode -/

section

include size

/-- After some blocks: what was fed is the front of the input, and as much was
written. -/
theorem conveyBlocks_spec (length : BitVec 32) (count : Nat)
    (within : blockSize * count ≤ input.length) :
    let io := conveyBlocks engine input blockSize
      { length, fed := [], taken := 0, written := [] } count
    io.length = length ∧ io.fed = packed (input.take (blockSize * count)) ∧
      io.written.map Prod.fst = List.range (blockSize * count) := by
  have words : blockSize % 4 = 0 := by rcases size with rfl | rfl <;> rfl
  induction count with
  | zero =>
      rw [Nat.mul_zero, List.take_zero]
      exact ⟨rfl, (packed_short [] (by decide)).symm, rfl⟩
  | succ count ih =>
      rw [Nat.mul_succ] at within
      obtain ⟨kept, fed, written⟩ := ih (by omega)
      have front : (input.take (blockSize * count)).length % 4 = 0 := by
        rw [List.length_take, Nat.min_eq_left (by omega), Nat.mul_mod, words,
          Nat.zero_mul]
      unfold conveyBlocks at kept fed written ⊢
      rw [List.range_succ, List.foldl_append]
      refine ⟨kept, ?_, ?_⟩
      · change _ ++ _ = _
        rw [fed, ← packed_slice input _ _ words within,
          ← packed_append_words _ _ front, Nat.mul_succ, List.take_add]
      · change ((CeIo.take engine _ _ blockSize).written.map Prod.fst) = _
        rw [places_take engine _ _ _ words]
        change List.map Prod.fst (CeIo.written (List.foldl _ _ _)) ++ _ = _
        rw [written, range_extend, Nat.mul_succ]

theorem conveyBlocks_whole (length : BitVec 32) :
    let io := conveyBlocks engine input blockSize
      { length, fed := [], taken := 0, written := [] }
      (alignLen input blockSize / blockSize)
    io.length = length ∧
      io.fed = packed (input.take (alignLen input blockSize)) ∧
      io.written.map Prod.fst = List.range (alignLen input blockSize) := by
  have whole : blockSize * (alignLen input blockSize / blockSize) =
      alignLen input blockSize :=
    Nat.mul_div_cancel' (Nat.dvd_of_mod_eq_zero (alignLen_mod input size))
  have spec := conveyBlocks_spec engine input size length
    (alignLen input blockSize / blockSize)
    (by rw [whole]; exact alignLen_le input blockSize)
  rw [whole] at spec
  exact spec

/-- The CPU mode gets every block through unless it pads a short block to
more than one. -/
theorem conveyed_cpu_iff (len : Nat) :
    Conveyed input blockSize
        (conveyCpu engine input blockSize (CeIo.setLength len)) ↔
      blockSize = 16 ∨ input.length % blockSize = 0 := by
  obtain ⟨_, fed, written⟩ :=
    conveyBlocks_whole engine input size (BitVec.ofNat 32 len)
  have pads := length_padding input size
  have long := length_padded input size
  have words := packed_padded input size
  unfold Conveyed conveyCpu CeIo.setLength
  change _ ↔ _ ∨ remainLen input blockSize = 0
  rw [words, long]
  unfold announced
  by_cases whole : remainLen input blockSize = 0
  · rw [if_neg (not_not_intro whole), if_neg (not_not_intro whole),
      if_neg (not_not_intro whole), List.append_nil]
    exact iff_of_true ⟨fed, written⟩ (.inr whole)
  · rw [if_pos whole, if_pos whole, if_pos whole]
    change (_ ++ _ = _ ∧ _) ↔ _
    rw [places_take engine _ _ _ rfl]
    change _ ∧ List.map Prod.fst (CeIo.written (conveyBlocks ..)) ++ _ = _ ↔ _
    rw [fed, written, range_extend]
    rcases size with rfl | rfl
    · have more : List.range (alignLen input 8 + 16) ≠
          List.range (alignLen input 8 + 8) := by
        intro same
        have lengths := congrArg List.length same
        rw [List.length_range, List.length_range] at lengths
        omega
      exact iff_of_false (fun both => more both.2) (by
        rintro (wide | none)
        · cases wide
        · exact whole none)
    · have slice := packed_slice (padding input 16) 0 16 rfl (by omega)
      rw [← slice]
      exact iff_of_true ⟨rfl, rfl⟩ (.inl rfl)

theorem length_conveyCpu (len : Nat) :
    (conveyCpu engine input blockSize (CeIo.setLength len)).length =
      BitVec.ofNat 32 len := by
  have kept := (conveyBlocks_whole engine input size (BitVec.ofNat 32 len)).1
  unfold conveyCpu CeIo.setLength
  dsimp only
  split
  · exact kept
  · exact kept

end

/-! ### The DMA mode -/

theorem places_transfer (io : CeIo) (data : List Byte) (offset bytes : Nat)
    (transfer : DmaTransfer) :
    (io.transfer engine data offset bytes transfer).written.map Prod.fst =
      io.written.map Prod.fst ++
        (List.range (min bytes transfer.output)).map (offset + ·) := by
  unfold CeIo.transfer
  rw [List.map_append, List.map_map]
  rfl

theorem length_packed_take (data : List Byte) (bytes input : Nat)
    (within : bytes ≤ data.length) :
    (packed (data.take (min bytes input))).length = min bytes input / 4 := by
  rw [length_packed, List.length_take, Nat.min_eq_left (by omega)]

theorem range_inj (first second : Nat) :
    List.range first = List.range second ↔ first = second := by
  constructor
  · intro same
    have lengths := congrArg List.length same
    rw [List.length_range, List.length_range] at lengths
    exact lengths
  · rintro rfl
    rfl

/-- One transfer gets its blocks through if both channels move all of it. -/
theorem transfer_iff (data : List Byte) (bytes : Nat)
    (transfer : DmaTransfer) (whole : bytes % 4 = 0)
    (within : bytes ≤ data.length) (len : Nat) :
    let io := (CeIo.setLength len).transfer engine data 0 bytes transfer
    (io.fed = packed (data.take bytes) ∧
        io.written.map Prod.fst = List.range bytes) ↔
      bytes ≤ transfer.input ∧ bytes ≤ transfer.output := by
  intro io
  have places : io.written.map Prod.fst =
      List.range (min bytes transfer.output) := by
    have start : (CeIo.setLength len).written = [] := rfl
    change List.map Prod.fst (CeIo.transfer ..).written = _
    rw [places_transfer, start]
    simp
  have fed : io.fed = packed (data.take (min bytes transfer.input)) := rfl
  rw [places, fed, range_inj]
  constructor
  · rintro ⟨words, written⟩
    have lengths := congrArg List.length words
    rw [length_packed_take data _ _ within, length_packed, List.length_take,
      Nat.min_eq_left within] at lengths
    omega
  · rintro ⟨input, output⟩
    rw [Nat.min_eq_left input, Nat.min_eq_left output]
    exact ⟨rfl, rfl⟩

theorem places_transfer_lt (io : CeIo) (data : List Byte) (offset bytes : Nat)
    (transfer : DmaTransfer) (bound : Nat) (room : offset + bytes ≤ bound)
    (before : ∀ place ∈ io.written.map Prod.fst, place < bound) :
    ∀ place ∈ (io.transfer engine data offset bytes
      transfer).written.map Prod.fst, place < bound := by
  rw [places_transfer]
  intro place member
  rcases List.mem_append.mp member with old | new
  · exact before place old
  · obtain ⟨index, inside, rfl⟩ := List.mem_map.mp new
    have short := List.mem_range.mp inside
    omega

theorem places_conveyDma_lt (answers : CeAnswers) (len : Nat) :
    ∀ place ∈ (conveyDma engine input blockSize answers
        (CeIo.setLength len)).2.written.map Prod.fst,
      place < announced input blockSize := by
  have none : ∀ place ∈ (CeIo.setLength len).written.map Prod.fst,
      place < announced input blockSize := by
    intro place member
    cases member
  have front : alignLen input blockSize ≤ announced input blockSize := by
    unfold announced
    split <;> omega
  have first := places_transfer_lt engine (CeIo.setLength len) input 0
    (alignLen input blockSize) answers.first _ (by omega) none
  unfold conveyDma
  dsimp only
  by_cases some : alignLen input blockSize ≠ 0
  · rw [if_pos some]
    dsimp only
    split
    · exact first
    · split
      · rename_i part
        have back : alignLen input blockSize + blockSize ≤
            announced input blockSize := by
          unfold announced
          rw [if_pos part]
        exact places_transfer_lt engine _ _ _ _ _ _ back first
      · exact first
  · rw [if_neg some, if_neg (not_not_intro rfl)]
    split
    · rename_i part
      have back : alignLen input blockSize + blockSize ≤
          announced input blockSize := by
        unfold announced
        rw [if_pos part]
      exact places_transfer_lt engine _ _ _ _ _ _ back none
    · exact none

theorem length_conveyDma (answers : CeAnswers) (io : CeIo) :
    (conveyDma engine input blockSize answers io).2.length = io.length := by
  unfold conveyDma
  by_cases some : alignLen input blockSize ≠ 0
  · rw [if_pos some]
    dsimp only
    split
    · rfl
    · split <;> rfl
  · rw [if_neg some]
    dsimp only
    rw [if_neg (not_not_intro rfl)]
    split <;> rfl

theorem padded_pos (some : input ≠ []) :
    0 < (padded input blockSize).length := by
  have long := List.length_pos_of_ne_nil some
  unfold padded
  rw [List.length_append]
  omega

include size

/-- The DMA mode gets every block through exactly if the channels move all
they are started for, the second transfer with the answer of the first. -/
theorem conveyed_dma_iff (answers : CeAnswers) (len : Nat)
    (large : 300 < input.length) :
    Conveyed input blockSize
        (conveyDma engine input blockSize answers (CeIo.setLength len)).2 ↔
      (alignLen input blockSize ≤ answers.first.input ∧
          alignLen input blockSize ≤ answers.first.output) ∧
        (remainLen input blockSize ≠ 0 →
          answers.first.answer = .ok ∧
            blockSize ≤ answers.second.input ∧
            blockSize ≤ answers.second.output) := by
  have some : alignLen input blockSize ≠ 0 := by
    unfold alignLen
    rcases size with rfl | rfl <;> omega
  have words := alignLen_words input size
  have within := alignLen_le input blockSize
  have first := transfer_iff engine input _ answers.first words
    within len
  have pads := length_padding input size
  have long := length_padded input size
  have all := packed_padded input size
  have places : ((CeIo.setLength len).transfer engine input 0
      (alignLen input blockSize) answers.first).written.map Prod.fst =
      List.range (min (alignLen input blockSize) answers.first.output) := by
    have start : (CeIo.setLength len).written = [] := rfl
    rw [places_transfer, start]
    simp
  unfold announced at long
  unfold Conveyed conveyDma
  rw [if_pos some, all, long]
  dsimp only
  by_cases whole : remainLen input blockSize = 0
  · rw [if_neg (not_not_intro whole), if_neg (not_not_intro whole),
      if_neg (not_not_intro whole), List.append_nil]
    have same : (if answers.first.answer ≠ .ok then
        (answers.first.answer, (CeIo.setLength len).transfer engine input 0
          (alignLen input blockSize) answers.first)
        else (.ok, (CeIo.setLength len).transfer engine input 0
          (alignLen input blockSize) answers.first)).2 =
        (CeIo.setLength len).transfer engine input 0
          (alignLen input blockSize) answers.first := by
      split
      · rfl
      · rfl
    rw [same]
    exact first.trans (and_iff_left fun part => absurd whole part).symm
  · rw [if_pos whole, if_pos whole, if_pos whole]
    have block : blockSize % 4 = 0 ∧ blockSize ≤ 16 ∧ 0 < blockSize := by
      rcases size with rfl | rfl <;> decide
    by_cases answered : answers.first.answer = .ok
    · rw [if_neg (not_not_intro answered)]
      dsimp only
      rw [places_transfer, places]
      constructor
      · rintro ⟨fed, written⟩
        have lengths := congrArg List.length fed
        have counts := congrArg List.length written
        change (([] ++ packed _) ++ packed _).length = _ at lengths
        rw [List.nil_append, List.length_append, List.length_append,
          length_packed_take _ _ _ within, length_packed_take _ _ _ (by omega),
          length_packed, length_packed, List.length_take, List.length_take,
          Nat.min_eq_left within, pads] at lengths
        rw [List.length_append, List.length_map, List.length_range,
          List.length_range, List.length_range] at counts
        exact ⟨by omega, fun _ => ⟨answered, by omega, by omega⟩⟩
      · rintro ⟨⟨input₁, output₁⟩, second⟩
        obtain ⟨_, input₂, output₂⟩ := second whole
        rw [Nat.min_eq_left output₁, Nat.min_eq_left output₂, range_extend]
        refine ⟨?_, rfl⟩
        change ([] ++ packed _) ++ packed _ = _
        rw [Nat.min_eq_left input₁, Nat.min_eq_left input₂, List.nil_append]
    · rw [if_pos answered]
      dsimp only
      rw [places, range_inj]
      constructor
      · rintro ⟨_, counts⟩
        omega
      · rintro ⟨_, second⟩
        exact absurd (second whole).1 answered

/-! ### The whole convey -/

theorem length_halCryptoConvey (answers : CeAnswers) :
    (halCryptoConvey engine input blockSize answers).2.length =
      BitVec.ofNat 32 (announced input blockSize) := by
  unfold halCryptoConvey
  dsimp only
  split
  · split
    · rfl
    · exact length_conveyDma engine input answers _
  · exact length_conveyCpu engine input size _

theorem places_halCryptoConvey_lt (answers : CeAnswers)
    (large : 300 < input.length) :
    ∀ place ∈ (halCryptoConvey engine input blockSize
        answers).2.written.map Prod.fst,
      place < (padded input blockSize).length := by
  rw [length_padded input size]
  unfold halCryptoConvey
  rw [if_pos large]
  split
  · intro place member
    cases member
  · exact places_conveyDma_lt engine input answers _

theorem conveyed_short_iff (answers : CeAnswers)
    (short : ¬ 300 < input.length) :
    (halCryptoConvey engine input blockSize answers).1 = .ok ∧
      (Conveyed input blockSize
          (halCryptoConvey engine input blockSize answers).2 ↔
        blockSize = 16 ∨ input.length % blockSize = 0) := by
  unfold halCryptoConvey
  rw [if_neg short]
  exact ⟨rfl, conveyed_cpu_iff engine input size _⟩

theorem conveyed_long_iff (answers : CeAnswers) (large : 300 < input.length) :
    Conveyed input blockSize
        (halCryptoConvey engine input blockSize answers).2 ↔
      Moves input blockSize answers := by
  unfold halCryptoConvey Moves
  rw [if_pos large]
  by_cases granted : halCryptoInitDMA answers = .ok
  · rw [if_neg (not_not_intro granted)]
    exact (conveyed_dma_iff engine input size answers _ large).trans
      (and_iff_right granted).symm
  · rw [if_pos granted]
    refine iff_of_false ?_ fun moves => granted moves.1
    rintro ⟨_, written⟩
    have positive : 0 < (padded input blockSize).length :=
      padded_pos input (by rintro rfl; exact absurd large (by decide))
    have lengths := congrArg List.length written
    rw [List.length_range] at lengths
    change 0 = _ at lengths
    omega

theorem served_iff (answers : CeAnswers) (large : 300 < input.length) :
    (halCryptoConvey engine input blockSize answers).1 = .ok ↔
      Served input blockSize answers := by
  have some : alignLen input blockSize ≠ 0 := by
    unfold alignLen
    rcases size with rfl | rfl <;> omega
  unfold halCryptoConvey Served conveyDma
  rw [if_pos large, if_pos some]
  by_cases granted : halCryptoInitDMA answers = .ok
  · rw [if_neg (not_not_intro granted), and_iff_right granted]
    dsimp only
    by_cases answered : answers.first.answer = .ok
    · rw [if_neg (not_not_intro answered), and_iff_right answered]
      by_cases whole : remainLen input blockSize = 0
      · rw [if_neg (not_not_intro whole)]
        exact iff_of_true rfl fun part => absurd whole part
      · rw [if_pos whole]
        exact (imp_iff_right whole).symm
    · rw [if_pos answered]
      exact iff_of_false answered fun both => answered both.1
  · rw [if_pos granted]
    exact iff_of_false granted fun all => granted all.1

end

theorem CeMethod.blockSize_eq (method : CeMethod) :
    method.blockSize = 8 ∨ method.blockSize = 16 := by
  cases method with
  | aes => exact .inr rfl
  | des => exact .inl rfl
  | des3 => exact .inl rfl

/-- With the mutex an operation is answered `HAL_OK`, whatever came of the
convey. -/
theorem halCipher_ok_iff (ce : CeUnit) (input : List Byte)
    (answers : CeAnswers) (method : CeMethod) (op : CeCryptoOp)
    (some : input ≠ []) (property : CeIo → Prop) :
    ((halCipher ce input answers method op).1 = .ok →
        ∃ io ∈ (halCipher ce input answers method op).2, property io) ↔
      (answers.lock = .ok → property
        (halCryptoConvey (ce method op) input method.blockSize answers).2) := by
  have long : input.length ≠ 0 := fun none =>
    some (List.eq_nil_of_length_eq_zero none)
  rw [halCipher_eq]
  unfold halCrypt
  rw [if_neg long]
  by_cases locked : answers.lock = .ok
  · rw [if_neg (not_not_intro locked)]
    constructor
    · intro holds _
      obtain ⟨io, same, held⟩ := holds rfl
      cases same
      exact held
    · intro holds _
      exact ⟨_, rfl, holds locked⟩
  · rw [if_pos locked]
    exact iff_of_true (fun ok => absurd ok locked) fun ok => absurd ok locked

/-- The ciphers do what they are asked exactly if the length counts, no short
block of eight is padded to sixteen, and the DMA moves everything. -/
theorem cipherRight_iff (ce : CeUnit) (input : List Byte)
    (answers : CeAnswers) (method : CeMethod) (op : CeCryptoOp)
    (some : input ≠ []) (uint32 : input.length < 2 ^ 32) :
    CipherRight ce input answers method op ↔
      Sound input method.blockSize answers := by
  have size := method.blockSize_eq
  have long := length_padded input size
  have announces :=
    length_halCryptoConvey (ce method op) input size answers
  have counts : (BitVec.ofNat 32
      (announced input method.blockSize)).toNat =
        (padded input method.blockSize).length ↔
      (padded input method.blockSize).length < 2 ^ 32 := by
    rw [BitVec.toNat_ofNat, ← long]
    exact Nat.mod_eq_iff_lt (by decide)
  unfold CipherRight ConveyRight
  rw [halCipher_ok_iff ce input answers method op some]
  dsimp only
  rw [announces, counts]
  by_cases large : 300 < input.length
  · have conveyed :=
      conveyed_long_iff (ce method op) input size answers large
    have served := served_iff (ce method op) input size answers large
    rw [conveyed, served]
    constructor
    · rintro ⟨⟨counted, moved, _⟩, locked⟩
      exact ⟨counted, fun short => absurd large (by omega),
        fun _ cause => cause.elim moved locked⟩
    · rintro ⟨counted, _, moved⟩
      exact ⟨⟨counted, fun answered => moved large (.inl answered),
          places_halCryptoConvey_lt (ce method op) input size answers large⟩,
        fun locked => moved large (.inr locked)⟩
  · obtain ⟨ok, conveyed⟩ :=
      conveyed_short_iff (ce method op) input size answers large
    rw [conveyed]
    constructor
    · rintro ⟨⟨counted, tail, _⟩, _⟩
      exact ⟨counted, fun _ => tail ok, fun long => absurd long large⟩
    · rintro ⟨counted, tail, _⟩
      have through := tail (Nat.le_of_not_lt large)
      refine ⟨⟨counted, fun _ => through, ?_⟩, fun _ => through⟩
      intro place member
      rw [(conveyed.mpr through).2] at member
      exact List.mem_range.mp member

/-- Answers that grant everything at once. -/
def prompt (bytes : Nat) : CeAnswers :=
  { lock := .ok
    outputChannel := true
    inputChannel := true
    first := { answer := .ok, input := bytes, output := bytes }
    second := { answer := .ok, input := 16, output := 16 } }

theorem oneBlock_right :
    CipherRight (fun _ _ _ _ => 0) (List.replicate 8 1) (prompt 8) .des
        .encryption ↔
      Sound (List.replicate 8 1) CeMethod.des.blockSize (prompt 8) :=
  cipherRight_iff _ _ _ .des .encryption (by decide) (by decide)

/-- One byte for DES: two blocks go to the engine, and sixteen bytes to an
output of eight. -/
theorem oneByte_overrun :
    ¬ CipherRight (fun _ _ _ _ => 0) [1] (prompt 1) .des .encryption := by
  rintro ⟨⟨_, _, within⟩, _⟩
  exact absurd (within 15 (by decide)) (by decide)

end XR872.Crypto
