/-
The input of the LZMA2 decoder.

A call may end in the middle of a symbol, so the last bytes of its input are
kept in a buffer of the decoder until the next call.
-/

import XR872.Xz.Symbols

namespace XR872.Lzma

open BitView
open Checked
open RangeBudget
open Xz

def LZMA_IN_REQUIRED : Nat := 21

def TEMP_SIZE : Nat := 3 * LZMA_IN_REQUIRED

/-- The bit counts and masks of `lzma_props`; its loops count how often 45 and 9
go into the byte. -/
def lzmaProps (lzma : LzmaDec) (props : Nat) : Option LzmaDec :=
  if (4 * 5 + 4) * 9 + 8 < props then none
  else
    let pb := props / 45
    let lp := props % 45 / 9
    let lc := props % 45 % 9
    if 4 < lc + lp then none
    else some
      { lzma with
        lc := lc
        literalPosMask := 2 ^ lp - 1
        posMask := 2 ^ pb - 1 }

/-- `rc_reset` with the bytes that `rc_read_init` reads behind it. -/
def rcReset (rc : RcDec) (code : Nat) : RcDec :=
  { rc with range := 2 ^ 32 - 1, code := code }

def lzmaReset (coder : Coder) : Coder :=
  { coder with
    probs := fun _ => RC_BIT_MODEL_TOTAL / 2
    lzma := { coder.lzma with
      state := .litLit
      rep0 := 0
      rep1 := 0
      rep2 := 0
      rep3 := 0 } }

/-- What a chunk uses of `struct xz_dec_lzma2`. -/
structure Lzma2 where
  coder : Coder
  dict : Dictionary
  uncompressed : Nat
  compressed : Nat
  tempSize : Nat
  tempBuf : List Byte
  needDictReset : Bool

/-- `xz_dec_lzma2_reset`, the size of the dictionary apart. -/
def xzDecLzma2Reset (s : Lzma2) : Lzma2 :=
  { s with
    coder := { s.coder with lzma := { s.coder.lzma with len := 0 } }
    tempSize := 0
    needDictReset := true }

/-- `memcpy` into a buffer. -/
def overlay (buf : List Byte) (place : Nat) (bytes : List Byte) : List Byte :=
  buf.take place ++ bytes ++ buf.drop (place + bytes.length)

def piece (bytes : List Byte) (place size : Nat) : Option (List Byte) :=
  if place + size ≤ bytes.length then some ((bytes.drop place).take size)
  else none

/-- `lzma_main` on an input. -/
def mainOn (s : Lzma2) (input : List Byte) (inPos inLimit : Nat) :
    Option (Bool × Lzma2) :=
  let rc :=
    { s.coder.rc with input := input, inPos := inPos, inLimit := inLimit }
  (lzmaMain s.dict { s.coder with rc := rc }).map fun result =>
    (result.1.1, { s with dict := result.1.2, coder := result.2 })

/-- Decodes from the buffer of the decoder; the last component is whether
`lzma2_lzma` goes on. -/
def runTemp (s : Lzma2) (there inPos inLimit : Nat) :
    Option (Bool × Lzma2 × Nat × Bool) := do
  let (ok, s) ← mainOn s s.tempBuf 0 inLimit
  let used := s.coder.rc.inPos
  if ok = false ∨ there < used then some (false, s, inPos, false)
  else
    let s := { s with compressed := s.compressed - used }
    if used < s.tempSize then do
      let kept ← piece s.tempBuf used (s.tempSize - used)
      some (true,
        { s with
          tempSize := s.tempSize - used
          tempBuf := overlay s.tempBuf 0 kept }, inPos, false)
    else
      some (true, { s with tempSize := 0 }, inPos + (used - s.tempSize), true)

/-- The first bytes go through the buffer of the decoder. -/
def decodeTemp (s : Lzma2) (input : List Byte) (inPos : Nat) :
    Option (Bool × Lzma2 × Nat × Bool) := do
  let tmp := min (min (2 * LZMA_IN_REQUIRED - s.tempSize)
    (s.compressed - s.tempSize)) (input.length - inPos)
  let bytes ← piece input inPos tmp
  let there := s.tempSize + tmp
  let tempBuf := overlay s.tempBuf s.tempSize bytes
  if TEMP_SIZE < there then none
  else if there = s.compressed then
    let zeros := List.replicate (TEMP_SIZE - there) 0
    runTemp { s with tempBuf := overlay tempBuf there zeros } there inPos there
  else if there < LZMA_IN_REQUIRED then
    some (true, { s with tempBuf := tempBuf, tempSize := there }, inPos + tmp,
      false)
  else
    runTemp { s with tempBuf := tempBuf } there inPos (there - LZMA_IN_REQUIRED)

/-- The bytes behind go through the caller's buffer. -/
def decodeInput (s : Lzma2) (input : List Byte) (inPos : Nat) :
    Option (Bool × Lzma2 × Nat) :=
  if input.length - inPos < LZMA_IN_REQUIRED then some (true, s, inPos)
  else do
    let inLimit :=
      if s.compressed + LZMA_IN_REQUIRED ≤ input.length - inPos then
        inPos + s.compressed
      else input.length - LZMA_IN_REQUIRED
    let (ok, s) ← mainOn s input inPos inLimit
    let used := s.coder.rc.inPos - inPos
    if ok = false ∨ s.compressed < used then some (false, s, inPos)
    else
      some (true, { s with compressed := s.compressed - used },
        s.coder.rc.inPos)

/-- What is too short for a symbol is kept for the next call. -/
def keepRest (s : Lzma2) (input : List Byte) (inPos : Nat) :
    Option (Lzma2 × Nat) :=
  if input.length - inPos < LZMA_IN_REQUIRED then do
    let size := min (input.length - inPos) s.compressed
    let bytes ← piece input inPos size
    some ({ s with tempBuf := overlay s.tempBuf 0 bytes, tempSize := size },
      inPos + size)
  else some (s, inPos)

def lzma2LzmaBehind (s : Lzma2) (input : List Byte) (inPos : Nat) :
    Option (Bool × Lzma2 × Nat) := do
  let (ok, s, inPos) ← decodeInput s input inPos
  if ok = false then some (false, s, inPos)
  else
    let (s, inPos) ← keepRest s input inPos
    some (true, s, inPos)

def lzma2Lzma (s : Lzma2) (input : List Byte) (inPos : Nat) :
    Option (Bool × Lzma2 × Nat) :=
  if 0 < s.tempSize ∨ s.compressed = 0 then do
    let (ok, s, inPos, goesOn) ← decodeTemp s input inPos
    if goesOn then lzma2LzmaBehind s input inPos else some (ok, s, inPos)
  else lzma2LzmaBehind s input inPos

/-- What a call finds in `struct xz_buf`. -/
structure Pass where
  input : List Byte
  inPos : Nat
  outMax : Nat

inductive PassEnd
  | dataError
  | running (out : List Byte) (s : Lzma2) (inPos : Nat)
  | finished (out : List Byte) (s : Lzma2) (inPos : Nat)

/-- A pass of `SEQ_LZMA_RUN`. -/
def lzmaRun (s : Lzma2) (pass : Pass) : Option PassEnd := do
  let dict := dictLimit s.dict (min pass.outMax s.uncompressed)
  let (ok, s, inPos) ← lzma2Lzma { s with dict := dict } pass.input pass.inPos
  if ok = false then some .dataError
  else if s.dict.size < s.dict.pos ∨ pass.outMax < s.dict.pos - s.dict.start then
    none
  else
    let (out, dict) := dictFlush s.dict
    let s :=
      { s with dict := dict, uncompressed := s.uncompressed - out.length }
    if s.uncompressed = 0 then
      if 0 < s.compressed ∨ 0 < s.coder.lzma.len ∨ s.coder.rc.code ≠ 0 then
        some .dataError
      else some (.finished out s inPos)
    else some (.running out s inPos)

/-- The passes of a chunk: what each puts out and where it leaves its input, and
the decoder behind the chunk. -/
def lzmaRuns : Lzma2 → List Pass →
    Option (List (List Byte × Nat) × Option Lzma2)
  | _, [] => some ([], none)
  | s, pass :: passes =>
      (lzmaRun s pass).bind fun ends =>
        match ends with
        | .dataError => some ([], none)
        | .finished out s inPos => some ([(out, inPos)], some s)
        | .running out s inPos =>
            (lzmaRuns s passes).map fun rest =>
              ((out, inPos) :: rest.1, rest.2)

/-- A chunk that is not a copy: its control byte, its size, its properties, the
code that its first five bytes give, and the size and the passes of the rest. -/
structure Chunk where
  control : Nat
  uncompressed : Nat
  compressed : Nat
  props : Nat
  code : Nat
  passes : List Pass

/-- From `SEQ_CONTROL` to `SEQ_LZMA_RUN`; `none` is `XZ_DATA_ERROR`. -/
def startChunk (s : Lzma2) (chunk : Chunk) : Option Lzma2 :=
  if chunk.control < 0xE0 ∧ s.needDictReset then none
  else
    let dict := if 0xE0 ≤ chunk.control then dictReset s.dict else s.dict
    let coder :=
      if 0xC0 ≤ chunk.control then
        (lzmaProps s.coder.lzma chunk.props).map fun lzma =>
          lzmaReset { s.coder with lzma := lzma }
      else if 0xA0 ≤ chunk.control then some (lzmaReset s.coder)
      else some s.coder
    coder.map fun coder =>
      { s with
        dict := dict
        coder := { coder with rc := rcReset coder.rc chunk.code }
        uncompressed := chunk.uncompressed
        compressed := chunk.compressed
        needDictReset := false }

/-- All chunks, until one is refused or does not end. -/
def lzmaChunks : Lzma2 → List Chunk → Option (List (List (List Byte × Nat)))
  | _, [] => some []
  | s, chunk :: chunks =>
      match startChunk s chunk with
      | none => some []
      | some s =>
          (lzmaRuns s chunk.passes).bind fun ends =>
            match ends.2 with
            | none => some [ends.1]
            | some s => (lzmaChunks s chunks).map fun rest => ends.1 :: rest

/-! ### Calls -/

/-- The decoder between two calls of `lzma_main`: the range is normalized. -/
structure Steady (s : Lzma2) : Prop where
  normal : RC_TOP_VALUE ≤ s.coder.rc.range
  range_lt : s.coder.rc.range < 2 ^ 32
  probs : ∀ prob, 31 ≤ s.coder.probs prob ∧ s.coder.probs prob ≤ 2017
  props : Props s.coder.lzma
  rested : Rested s.coder.lzma s.dict
  inside : Inside s.dict

structure Grown (dict after : Dictionary) : Prop where
  further : dict.pos ≤ after.pos
  limit : after.limit = dict.limit
  size : after.size = dict.size
  start : after.start = dict.start

theorem Grown.refl (dict : Dictionary) : Grown dict dict :=
  ⟨Nat.le_refl _, rfl, rfl, rfl⟩

theorem Grown.trans {first second third : Dictionary}
    (one : Grown first second) (two : Grown second third) : Grown first third :=
  ⟨one.further.trans two.further, two.limit.trans one.limit,
    two.size.trans one.size, two.start.trans one.start⟩

theorem mainOn_spec {s : Lzma2} (steady : Steady s) (input : List Byte)
    (inPos inLimit stop : Nat) (within : inPos ≤ stop)
    (fits : stop ≤ input.length) (apart : inLimit + LZMA_IN_REQUIRED ≤ stop) :
    ∃ ok coder dict, mainOn s input inPos inLimit =
        some (ok, { s with dict := dict, coder := coder }) ∧
      inPos ≤ coder.rc.inPos ∧ coder.rc.inPos ≤ stop ∧
      (ok = true → Steady { s with dict := dict, coder := coder } ∧
        Grown s.dict dict) := by
  obtain ⟨normal, range_lt, probs, props, rested, inside⟩ := steady
  have start : Ok ⟨input, inPos, stop, inLimit, fits, apart⟩ 1 s.coder.lzma
      { s.coder with
        rc := { s.coder.rc with
          input := input
          inPos := inPos
          inLimit := inLimit } } := by
    refine ⟨rfl, rfl, Nat.le_refl _, within, ?_, ?_, range_lt, probs, rfl⟩
    · have normal' : (RC_TOP_VALUE : ℚ) ≤ s.coder.rc.range := by
        exact_mod_cast normal
      have power : (1 : ℚ) ≤ 256 ^ (stop - inPos) :=
        one_le_pow₀ (by norm_num)
      have scaled := le_mul_of_one_le_right
        (Nat.cast_nonneg (α := ℚ) s.coder.rc.range) power
      rw [Enough, one_mul]
      exact normal'.trans scaled
    · dsimp only
      omega
  obtain ⟨result, after, run, lzma, ok, ends⟩ :=
    lzmaMain_triple props rested inside _ start
  refine ⟨result.1, after, result.2, ?_, ok.le_inPos, ok.inPos_le, ?_⟩
  · unfold mainOn
    dsimp only
    rw [run]
    rfl
  · intro done
    obtain ⟨normal, props, rested, inside, further, limit, size, started⟩ :=
      ends done
    rw [← ok.lzma] at props rested
    exact ⟨⟨normal, ok.range_lt, ok.probs, props, rested, inside⟩,
      ⟨further, limit, size, started⟩⟩

structure Held (s : Lzma2) : Prop where
  buf : s.tempBuf.length = TEMP_SIZE
  le : s.tempSize ≤ s.compressed
  lt : s.tempSize < LZMA_IN_REQUIRED

/-- What is still to be taken from the input of the chunk. -/
def Lzma2.untaken (s : Lzma2) : Nat := s.compressed - s.tempSize

/-- What holds behind a part of `lzma2_lzma` that did not fail. -/
structure Decoded (dict : Dictionary) (uncompressed untaken : Nat)
    (input : List Byte) (inPos : Nat) (after : Lzma2) (inPos' : Nat) : Prop where
  steady : Steady after
  held : Held after
  grown : Grown dict after.dict
  same : after.uncompressed = uncompressed
  le_inPos : inPos ≤ inPos'
  inPos_le : inPos' ≤ input.length
  taken : inPos' - inPos + after.untaken = untaken

theorem Decoded.trans {dict : Dictionary} {uncompressed untaken : Nat}
    {middle after : Lzma2} {input : List Byte} {inPos inPos' inPos'' : Nat}
    (one : Decoded dict uncompressed untaken input inPos middle inPos')
    (two : Decoded middle.dict middle.uncompressed middle.untaken input inPos'
      after inPos'') :
    Decoded dict uncompressed untaken input inPos after inPos'' := by
  have first := one.taken
  have second := two.taken
  have le := one.le_inPos
  have le' := two.le_inPos
  exact ⟨two.steady, two.held, one.grown.trans two.grown,
    two.same.trans one.same, le.trans le', two.inPos_le, by omega⟩

theorem length_overlay {buf bytes : List Byte} {place : Nat}
    (fits : place + bytes.length ≤ buf.length) :
    (overlay buf place bytes).length = buf.length := by
  unfold overlay
  rw [List.length_append, List.length_append, List.length_take,
    List.length_drop]
  omega

theorem piece_eq (bytes : List Byte) (place size : Nat)
    (fits : place + size ≤ bytes.length) :
    piece bytes place size = some ((bytes.drop place).take size) ∧
      ((bytes.drop place).take size).length = size := by
  unfold piece
  rw [if_pos fits, List.length_take, List.length_drop]
  exact ⟨rfl, by omega⟩

theorem Steady.congr {s after : Lzma2} (steady : Steady s)
    (coder : after.coder = s.coder) (dict : after.dict = s.dict) :
    Steady after := by
  obtain ⟨normal, range_lt, probs, props, rested, inside⟩ := steady
  rw [← coder] at normal range_lt probs props
  rw [← coder, ← dict] at rested
  rw [← dict] at inside
  exact ⟨normal, range_lt, probs, props, rested, inside⟩

theorem runTemp_spec {s : Lzma2} (steady : Steady s)
    (buf : s.tempBuf.length = TEMP_SIZE) (lt : s.tempSize < LZMA_IN_REQUIRED)
    (input : List Byte) (there inPos inLimit stop : Nat)
    (chunk : there ≤ s.compressed) (more : s.tempSize ≤ there)
    (taken : inPos + (there - s.tempSize) ≤ input.length)
    (fits : stop ≤ TEMP_SIZE) (apart : inLimit + LZMA_IN_REQUIRED ≤ stop) :
    ∃ ok after inPos' goesOn,
      runTemp s there inPos inLimit = some (ok, after, inPos', goesOn) ∧
        (ok = true → Decoded s.dict s.uncompressed s.untaken input inPos after
          inPos') ∧
        (goesOn = true → ok = true ∧ after.tempSize = 0) := by
  obtain ⟨ok, coder, dict, run, _, _, ends⟩ :=
    mainOn_spec steady s.tempBuf 0 inLimit stop (Nat.zero_le _)
      (by rw [buf]; exact fits) apart
  unfold runTemp
  rw [run]
  simp only [Option.bind_eq_bind, Option.bind_some]
  by_cases failed : ok = false ∨ there < coder.rc.inPos
  · rw [if_pos failed]
    exact ⟨_, _, _, _, rfl, fun done => absurd done (by decide),
      fun goesOn => absurd goesOn (by decide)⟩
  · rw [if_neg failed]
    obtain ⟨done, used⟩ := not_or.mp failed
    obtain ⟨steady', grown⟩ := ends (Bool.eq_true_of_not_eq_false done)
    by_cases left : coder.rc.inPos < s.tempSize
    · unfold TEMP_SIZE at buf
      obtain ⟨kept, size⟩ := piece_eq s.tempBuf coder.rc.inPos
        (s.tempSize - coder.rc.inPos) (by omega)
      rw [if_pos left, kept, Option.bind_some]
      refine ⟨_, _, _, _, rfl, fun _ => ⟨steady'.congr rfl rfl, ⟨?_, ?_, ?_⟩,
        grown, rfl, Nat.le_refl _, by omega, ?_⟩,
        fun goesOn => absurd goesOn (by decide)⟩
      · dsimp only
        rw [length_overlay (by omega), buf]
        rfl
      · dsimp only
        omega
      · dsimp only
        omega
      · unfold Lzma2.untaken
        dsimp only
        omega
    · rw [if_neg left]
      refine ⟨_, _, _, _, rfl, fun _ => ⟨steady'.congr rfl rfl,
        ⟨buf, Nat.zero_le _, Nat.succ_pos 20⟩, grown, rfl, by omega, by omega,
        ?_⟩, fun _ => ⟨rfl, rfl⟩⟩
      unfold Lzma2.untaken
      dsimp only
      omega

theorem decodeTemp_spec {s : Lzma2} (steady : Steady s) (held : Held s)
    (input : List Byte) (inPos : Nat) (within : inPos ≤ input.length) :
    ∃ ok after inPos' goesOn,
      decodeTemp s input inPos = some (ok, after, inPos', goesOn) ∧
        (ok = true → Decoded s.dict s.uncompressed s.untaken input inPos after
          inPos') ∧
        (goesOn = true → ok = true ∧ after.tempSize = 0) := by
  obtain ⟨buf, le, lt⟩ := held
  unfold decodeTemp
  dsimp only
  generalize isTmp : min (min (2 * LZMA_IN_REQUIRED - s.tempSize)
    (s.compressed - s.tempSize)) (input.length - inPos) = tmp
  obtain ⟨taken, size⟩ := piece_eq input inPos tmp (by omega)
  generalize (input.drop inPos).take tmp = bytes at taken size
  have small : s.tempSize + tmp ≤ 2 * LZMA_IN_REQUIRED := by omega
  have chunk : s.tempSize + tmp ≤ s.compressed := by omega
  have room : 2 * LZMA_IN_REQUIRED + LZMA_IN_REQUIRED = TEMP_SIZE := rfl
  have filled : (overlay s.tempBuf s.tempSize bytes).length = TEMP_SIZE := by
    rw [length_overlay (by omega), buf]
  rw [taken, Option.bind_eq_bind, Option.bind_some, if_neg (by omega)]
  by_cases last : s.tempSize + tmp = s.compressed
  · rw [if_pos last]
    have whole : (overlay (overlay s.tempBuf s.tempSize bytes)
        (s.tempSize + tmp)
        (List.replicate (TEMP_SIZE - (s.tempSize + tmp)) 0)).length =
          TEMP_SIZE := by
      rw [length_overlay (by
        rw [List.length_replicate]
        omega), filled]
    have steady' : Steady { s with
        tempBuf := overlay (overlay s.tempBuf s.tempSize bytes)
          (s.tempSize + tmp)
          (List.replicate (TEMP_SIZE - (s.tempSize + tmp)) 0) } :=
      steady.congr rfl rfl
    exact runTemp_spec steady' whole lt input _ inPos _ TEMP_SIZE chunk
      (Nat.le_add_right _ _) (by dsimp only; omega) (Nat.le_refl _) (by omega)
  · rw [if_neg last]
    by_cases waits : s.tempSize + tmp < LZMA_IN_REQUIRED
    · rw [if_pos waits]
      refine ⟨_, _, _, _, rfl, fun _ => ⟨steady.congr rfl rfl,
        ⟨filled, chunk, waits⟩, Grown.refl _, rfl, by omega, by omega, ?_⟩,
        fun goesOn => absurd goesOn (by decide)⟩
      unfold Lzma2.untaken
      dsimp only
      omega
    · rw [if_neg waits]
      have steady' : Steady
          { s with tempBuf := overlay s.tempBuf s.tempSize bytes } :=
        steady.congr rfl rfl
      exact runTemp_spec steady' filled lt input _ inPos _ (s.tempSize + tmp)
        chunk (Nat.le_add_right _ _) (by dsimp only; omega) (by omega)
        (by omega)

theorem lzma2LzmaBehind_spec {s : Lzma2} (steady : Steady s) (held : Held s)
    (empty : s.tempSize = 0) (input : List Byte) (inPos : Nat)
    (within : inPos ≤ input.length) :
    ∃ ok after inPos', lzma2LzmaBehind s input inPos =
        some (ok, after, inPos') ∧
      (ok = true → Decoded s.dict s.uncompressed s.untaken input inPos after
        inPos') := by
  obtain ⟨buf, le, lt⟩ := held
  -- the bytes that are kept fit the buffer, and none are kept without need
  have kept : ∀ middle : Lzma2, ∀ inPos', Steady middle →
      middle.tempBuf = s.tempBuf → middle.tempSize = 0 →
      Grown s.dict middle.dict → middle.uncompressed = s.uncompressed →
      inPos ≤ inPos' → inPos' ≤ input.length →
      inPos' - inPos + middle.compressed = s.compressed →
      ∃ after inPos'', keepRest middle input inPos' = some (after, inPos'') ∧
        Decoded s.dict s.uncompressed s.untaken input inPos after inPos'' := by
    intro middle inPos' steady same none_ grown uncompressed le_inPos inPos_le
      taken
    unfold keepRest
    by_cases short : input.length - inPos' < LZMA_IN_REQUIRED
    · rw [if_pos short]
      dsimp only
      generalize isSize : min (input.length - inPos') middle.compressed = size
      obtain ⟨copied, length⟩ := piece_eq input inPos' size (by omega)
      rw [copied, Option.bind_eq_bind, Option.bind_some]
      refine ⟨_, _, rfl, ⟨steady.congr rfl rfl, ⟨?_, ?_, ?_⟩, grown,
        uncompressed, by omega, by omega, ?_⟩⟩
      · dsimp only
        unfold TEMP_SIZE at buf ⊢
        rw [same, length_overlay (by omega), buf]
      · dsimp only
        omega
      · dsimp only
        omega
      · unfold Lzma2.untaken
        dsimp only
        omega
    · rw [if_neg short]
      refine ⟨_, _, rfl, ⟨steady, ⟨by rw [same, buf], ?_, ?_⟩, grown,
        uncompressed, le_inPos, inPos_le, ?_⟩⟩
      · rw [none_]
        exact Nat.zero_le _
      · rw [none_]
        exact Nat.succ_pos 20
      · unfold Lzma2.untaken
        omega
  unfold lzma2LzmaBehind decodeInput
  by_cases short : input.length - inPos < LZMA_IN_REQUIRED
  · obtain ⟨after, inPos', run, decoded⟩ := kept s inPos steady rfl empty
      (Grown.refl _) rfl (Nat.le_refl _) within (by omega)
    rw [if_pos short]
    simp only [Option.bind_eq_bind, Option.bind_some, Bool.true_eq_false,
      if_false, run]
    exact ⟨_, _, _, rfl, fun _ => decoded⟩
  · rw [if_neg short]
    dsimp only
    generalize isLimit : (if s.compressed + LZMA_IN_REQUIRED ≤
      input.length - inPos then inPos + s.compressed
      else input.length - LZMA_IN_REQUIRED) = inLimit
    have apart : inLimit + LZMA_IN_REQUIRED ≤ input.length := by
      rw [← isLimit]
      split <;> omega
    obtain ⟨ok, coder, dict, run, le_inPos, inPos_le, ends⟩ :=
      mainOn_spec steady input inPos inLimit input.length within
        (Nat.le_refl _) apart
    rw [run]
    simp only [Option.bind_eq_bind, Option.bind_some]
    by_cases failed : ok = false ∨ s.compressed < coder.rc.inPos - inPos
    · rw [if_pos failed, Option.bind_some, if_pos rfl]
      exact ⟨_, _, _, rfl, fun done => absurd done (by decide)⟩
    · rw [if_neg failed, Option.bind_some]
      obtain ⟨done, used⟩ := not_or.mp failed
      obtain ⟨steady', grown⟩ := ends (Bool.eq_true_of_not_eq_false done)
      obtain ⟨after, inPos', rest, decoded⟩ := kept
        { s with
          dict := dict
          coder := coder
          compressed := s.compressed - (coder.rc.inPos - inPos) }
        coder.rc.inPos (steady'.congr rfl rfl) rfl empty grown rfl le_inPos
        inPos_le (by dsimp only; omega)
      simp only [Bool.true_eq_false, if_false, rest, Option.bind_some]
      exact ⟨_, _, _, rfl, fun _ => decoded⟩

theorem lzma2Lzma_spec {s : Lzma2} (steady : Steady s) (held : Held s)
    (input : List Byte) (inPos : Nat) (within : inPos ≤ input.length) :
    ∃ ok after inPos', lzma2Lzma s input inPos = some (ok, after, inPos') ∧
      (ok = true → Decoded s.dict s.uncompressed s.untaken input inPos after
        inPos') := by
  unfold lzma2Lzma
  by_cases temp : 0 < s.tempSize ∨ s.compressed = 0
  · obtain ⟨ok, middle, inPos', goesOn, run, decoded, going⟩ :=
      decodeTemp_spec steady held input inPos within
    rw [if_pos temp, run]
    simp only [Option.bind_eq_bind, Option.bind_some]
    cases goesOn with
    | false => exact ⟨_, _, _, rfl, decoded⟩
    | true =>
        obtain ⟨done, empty⟩ := going rfl
        have one := decoded done
        obtain ⟨ok', after, inPos'', rest, ends⟩ := lzma2LzmaBehind_spec
          one.steady one.held empty input inPos' one.inPos_le
        rw [if_pos rfl]
        exact ⟨_, _, _, rest, fun done => one.trans (ends done)⟩
  · rw [if_neg temp]
    exact lzma2LzmaBehind_spec steady held (by omega) input inPos within

/-! ### Streams -/

structure Paused (s : Lzma2) : Prop where
  normal : RC_TOP_VALUE ≤ s.coder.rc.range
  range_lt : s.coder.rc.range < 2 ^ 32
  probs : ∀ prob, 31 ≤ s.coder.probs prob ∧ s.coder.probs prob ≤ 2017
  props : Props s.coder.lzma
  rested : Rested s.coder.lzma s.dict
  held : Held s
  pos_le : s.dict.pos ≤ s.dict.size
  full_le : s.dict.full ≤ s.dict.size
  started : s.dict.start = s.dict.pos

theorem dictLimit_spec {dict : Dictionary} (pos_le : dict.pos ≤ dict.size)
    (full_le : dict.full ≤ dict.size) (outMax : Nat) :
    Inside (dictLimit dict outMax) ∧
      (dictLimit dict outMax).limit ≤ dict.pos + outMax ∧
      (dictLimit dict outMax).pos = dict.pos ∧
      (dictLimit dict outMax).full = dict.full ∧
      (dictLimit dict outMax).start = dict.start := by
  unfold dictLimit
  by_cases small : dict.size - dict.pos ≤ outMax
  · rw [if_pos small]
    refine ⟨⟨pos_le, Nat.le_refl _, full_le⟩, ?_, rfl, rfl, rfl⟩
    dsimp only
    omega
  · rw [if_neg small]
    refine ⟨⟨Nat.le_add_right _ _, ?_, full_le⟩, Nat.le_refl _, rfl, rfl, rfl⟩
    dsimp only
    omega

structure Passed (s : Lzma2) (pass : Pass) (out : List Byte) (after : Lzma2)
    (inPos : Nat) : Prop where
  paused : Paused after
  out_le : out.length ≤ pass.outMax
  sum_eq : out.length + after.uncompressed = s.uncompressed
  le_inPos : pass.inPos ≤ inPos
  inPos_le : inPos ≤ pass.input.length
  taken : inPos - pass.inPos + after.untaken = s.untaken

def PassEnd.Fine (s : Lzma2) (pass : Pass) : PassEnd → Prop
  | .dataError => True
  | .running out after inPos => Passed s pass out after inPos
  | .finished out after inPos =>
      Passed s pass out after inPos ∧ after.tempSize = 0

theorem lzmaRun_spec {s : Lzma2} (paused : Paused s) (pass : Pass)
    (within : pass.inPos ≤ pass.input.length) :
    ∃ ends, lzmaRun s pass = some ends ∧ ends.Fine s pass := by
  obtain ⟨inside, room, pos, full, start⟩ := dictLimit_spec paused.pos_le
    paused.full_le (min pass.outMax s.uncompressed)
  have rested : Rested s.coder.lzma
      (dictLimit s.dict (min pass.outMax s.uncompressed)) := by
    unfold Rested
    rw [full]
    exact paused.rested
  have steady : Steady { s with
      dict := dictLimit s.dict (min pass.outMax s.uncompressed) } :=
    ⟨paused.normal, paused.range_lt, paused.probs, paused.props, rested, inside⟩
  have held : Held { s with
      dict := dictLimit s.dict (min pass.outMax s.uncompressed) } :=
    ⟨paused.held.buf, paused.held.le, paused.held.lt⟩
  obtain ⟨ok, after, inPos', run, decoded⟩ :=
    lzma2Lzma_spec steady held pass.input pass.inPos within
  unfold lzmaRun
  dsimp only
  rw [run]
  simp only [Option.bind_eq_bind, Option.bind_some]
  by_cases failed : ok = false
  · rw [if_pos failed]
    exact ⟨.dataError, rfl, trivial⟩
  · rw [if_neg failed]
    obtain ⟨steady, held, grown, same, le_inPos, inPos_le, taken⟩ :=
      decoded (Bool.eq_true_of_not_eq_false failed)
    obtain ⟨further, limit, size, started⟩ := grown
    obtain ⟨below, limit_le, full_le⟩ := steady.inside
    have atStart := paused.started
    dsimp only at further limit size started same
    have put : after.dict.pos - after.dict.start ≤
        min pass.outMax s.uncompressed := by omega
    have fits : ¬ (after.dict.size < after.dict.pos ∨
        pass.outMax < after.dict.pos - after.dict.start) := by omega
    rw [if_neg fits]
    have length : (dictFlush after.dict).1.length =
        after.dict.pos - after.dict.start := Memories.length_load _ _ _
    have passed : Passed s pass (dictFlush after.dict).1
        { after with
          dict := (dictFlush after.dict).2
          uncompressed :=
            after.uncompressed - (dictFlush after.dict).1.length } inPos' := by
      refine ⟨⟨steady.normal, steady.range_lt, steady.probs, steady.props,
        steady.rested, ⟨held.buf, held.le, held.lt⟩, ?_, full_le, rfl⟩, ?_, ?_,
        le_inPos, inPos_le, taken⟩
      · unfold dictFlush
        dsimp only
        split <;> omega
      · omega
      · dsimp only
        omega
    split
    · split
      · exact ⟨.dataError, rfl, trivial⟩
      · rename_i clean
        have le := held.le
        refine ⟨_, rfl, passed, ?_⟩
        dsimp only at clean ⊢
        omega
    · exact ⟨_, rfl, passed⟩

/-- What a pass put out and where it left its input, within what it was
given. -/
def Fits (ends : List Byte × Nat) (pass : Pass) : Prop :=
  ends.1.length ≤ pass.outMax ∧ pass.inPos ≤ ends.2 ∧
    ends.2 ≤ pass.input.length

def inputTaken (ends : List Byte × Nat) (pass : Pass) : Nat := ends.2 - pass.inPos

theorem lzmaRuns_spec (passes : List Pass) (s : Lzma2) (paused : Paused s)
    (within : ∀ pass ∈ passes, pass.inPos ≤ pass.input.length) :
    ∃ outs next, lzmaRuns s passes = some (outs, next) ∧
      List.Forall₂ Fits outs (passes.take outs.length) ∧
      (outs.map fun ends => ends.1.length).sum ≤ s.uncompressed ∧
      (List.zipWith inputTaken outs passes).sum ≤ s.untaken ∧
      ∀ after, next = some after → Paused after ∧ after.tempSize = 0 := by
  induction passes generalizing s with
  | nil =>
      exact ⟨[], none, rfl, .nil, Nat.zero_le _, Nat.zero_le _, fun _ none_ => by
        cases none_⟩
  | cons pass passes ih =>
      obtain ⟨now, later⟩ := List.forall_mem_cons.mp within
      obtain ⟨ends, run, fine⟩ := lzmaRun_spec paused pass now
      rw [lzmaRuns, run, Option.bind_some]
      cases ends with
      | dataError =>
          exact ⟨[], none, rfl, .nil, Nat.zero_le _, Nat.zero_le _,
            fun _ none_ => by cases none_⟩
      | finished out after inPos =>
          obtain ⟨passed, empty⟩ :
              Passed s pass out after inPos ∧ after.tempSize = 0 := fine
          have sum_eq := passed.sum_eq
          have taken_eq := passed.taken
          refine ⟨[(out, inPos)], some after, rfl, ?_, ?_, ?_, ?_⟩
          · exact .cons ⟨passed.out_le, passed.le_inPos, passed.inPos_le⟩ .nil
          · rw [List.map_singleton, List.sum_singleton]
            dsimp only
            omega
          · rw [List.zipWith_cons_cons, List.zipWith_nil_left, List.sum_singleton]
            unfold inputTaken
            dsimp only
            omega
          · intro last same
            injection same with same
            exact same ▸ ⟨passed.paused, empty⟩
      | running out after inPos =>
          have passed : Passed s pass out after inPos := fine
          have sum_eq := passed.sum_eq
          have taken_eq := passed.taken
          obtain ⟨outs, next, rest, fits, sum, input, kept⟩ :=
            ih after passed.paused later
          dsimp only
          rw [rest, Option.map_some]
          refine ⟨_, next, rfl, ?_, ?_, ?_, kept⟩
          · exact .cons ⟨passed.out_le, passed.le_inPos, passed.inPos_le⟩ fits
          · rw [List.map_cons, List.sum_cons]
            dsimp only
            omega
          · rw [List.zipWith_cons_cons, List.sum_cons]
            unfold inputTaken at input ⊢
            dsimp only
            omega

theorem lzmaProps_props {before lzma : LzmaDec} {byte : Nat}
    (accepted : lzmaProps before byte = some lzma) : Props lzma := by
  unfold lzmaProps at accepted
  by_cases high : (4 * 5 + 4) * 9 + 8 < byte
  · rw [if_pos high] at accepted
    cases accepted
  · rw [if_neg high] at accepted
    dsimp only at accepted
    by_cases wide : 4 < byte % 45 % 9 + byte % 45 / 9
    · rw [if_pos wide] at accepted
      cases accepted
    · rw [if_neg wide] at accepted
      injection accepted with isLzma
      subst isLzma
      refine ⟨?_, ?_, ?_⟩
      · dsimp only
        omega
      · dsimp only
        have small : 2 ^ (byte % 45 % 9 + byte % 45 / 9) ≤ 2 ^ 4 :=
          Nat.pow_le_pow_right (Nat.succ_pos 1) (by omega)
        rw [Nat.sub_add_cancel Nat.one_le_two_pow, ← pow_add]
        exact small
      · dsimp only
        have small : 2 ^ (byte / 45) ≤ 2 ^ 4 :=
          Nat.pow_le_pow_right (Nat.succ_pos 1) (by omega)
        have positive := Nat.two_pow_pos (byte / 45)
        unfold POS_STATES_MAX
        omega

structure Between (s : Lzma2) : Prop where
  buf : s.tempBuf.length = TEMP_SIZE
  empty : s.tempSize = 0
  paused : s.needDictReset = false → Paused s

theorem lzmaReset_probs (coder : Coder) (prob : Prob) :
    31 ≤ (lzmaReset coder).probs prob ∧ (lzmaReset coder).probs prob ≤ 2017 := by
  change 31 ≤ 2 ^ 11 / 2 ∧ 2 ^ 11 / 2 ≤ 2017
  omega

/-- A chunk that is begun: the range is whole, nothing is kept of an input. -/
theorem paused_of {s : Lzma2} {coder : Coder} {dict : Dictionary}
    (chunk : Chunk) (buf : s.tempBuf.length = TEMP_SIZE)
    (empty : s.tempSize = 0)
    (probs : ∀ prob, 31 ≤ coder.probs prob ∧ coder.probs prob ≤ 2017)
    (props : Props coder.lzma) (rested : Rested coder.lzma dict)
    (pos_le : dict.pos ≤ dict.size) (full_le : dict.full ≤ dict.size)
    (started : dict.start = dict.pos) :
    Paused { s with
      dict := dict
      coder := { coder with rc := rcReset coder.rc chunk.code }
      uncompressed := chunk.uncompressed
      compressed := chunk.compressed
      needDictReset := false } := by
  refine ⟨?_, ?_, probs, props, rested, ⟨buf, ?_, ?_⟩, pos_le, full_le, started⟩
  · change 2 ^ 24 ≤ 2 ^ 32 - 1
    omega
  · change 2 ^ 32 - 1 < 2 ^ 32
    omega
  · dsimp only
    omega
  · dsimp only
    rw [empty]
    exact Nat.succ_pos 20

theorem startChunk_spec {s after : Lzma2} (between : Between s) (chunk : Chunk)
    (started : startChunk s chunk = some after) :
    Paused after ∧ after.uncompressed = chunk.uncompressed ∧
      after.untaken = chunk.compressed := by
  obtain ⟨buf, empty, paused⟩ := between
  have untaken : chunk.compressed - s.tempSize = chunk.compressed := by
    rw [empty, Nat.sub_zero]
  unfold startChunk at started
  by_cases refused : chunk.control < 0xE0 ∧ s.needDictReset = true
  · rw [if_pos refused] at started
    cases started
  · rw [if_neg refused] at started
    have clear : ¬ 0xE0 ≤ chunk.control → s.needDictReset = false := by
      intro old
      cases need : s.needDictReset with
      | false => rfl
      | true => exact absurd ⟨by omega, need⟩ refused
    have dictOk : ∀ dict, dict = (if 0xE0 ≤ chunk.control then dictReset s.dict
        else s.dict) → dict.pos ≤ dict.size ∧ dict.full ≤ dict.size ∧
          dict.start = dict.pos := by
      intro dict isDict
      rw [isDict]
      by_cases fresh : 0xE0 ≤ chunk.control
      · rw [if_pos fresh]
        exact ⟨Nat.zero_le _, Nat.zero_le _, rfl⟩
      · have kept := paused (clear fresh)
        rw [if_neg fresh]
        exact ⟨kept.pos_le, kept.full_le, kept.started⟩
    obtain ⟨pos_le, full_le, begun⟩ := dictOk _ rfl
    by_cases propsGiven : 0xC0 ≤ chunk.control
    · rw [if_pos propsGiven] at started
      cases accepted : lzmaProps s.coder.lzma chunk.props with
      | none =>
          rw [accepted] at started
          cases started
      | some lzma =>
          rw [accepted] at started
          have props := lzmaProps_props accepted
          injection started with isAfter
          subst isAfter
          refine ⟨paused_of chunk buf empty (lzmaReset_probs _) ?_ (Or.inl rfl)
            pos_le full_le begun, rfl, untaken⟩
          exact ⟨props.lc_le, props.literal, props.posMask_lt⟩
    · have old : ¬ 0xE0 ≤ chunk.control := by omega
      have kept := paused (clear old)
      rw [if_neg propsGiven] at started
      by_cases fresh : 0xA0 ≤ chunk.control
      · rw [if_pos fresh] at started
        injection started with isAfter
        subst isAfter
        refine ⟨paused_of chunk buf empty (lzmaReset_probs _) ?_ (Or.inl rfl)
          pos_le full_le begun, rfl, untaken⟩
        exact ⟨kept.props.lc_le, kept.props.literal, kept.props.posMask_lt⟩
      · rw [if_neg fresh] at started
        injection started with isAfter
        subst isAfter
        refine ⟨paused_of chunk buf empty kept.probs kept.props ?_ pos_le
          full_le begun, rfl, untaken⟩
        rw [if_neg old]
        exact kept.rested

/-- What a chunk's passes put out and took fits what each pass was given, and
the chunk. -/
def ChunkFits (outs : List (List Byte × Nat)) (chunk : Chunk) : Prop :=
  List.Forall₂ Fits outs (chunk.passes.take outs.length) ∧
    (outs.map fun ends => ends.1.length).sum ≤ chunk.uncompressed ∧
    (List.zipWith inputTaken outs chunk.passes).sum ≤ chunk.compressed

theorem lzmaChunks_spec (chunks : List Chunk) (s : Lzma2)
    (between : Between s)
    (within : ∀ chunk ∈ chunks, ∀ pass ∈ chunk.passes,
      pass.inPos ≤ pass.input.length) :
    ∃ outs, lzmaChunks s chunks = some outs ∧
      List.Forall₂ ChunkFits outs (chunks.take outs.length) := by
  induction chunks generalizing s with
  | nil => exact ⟨[], rfl, .nil⟩
  | cons chunk chunks ih =>
      obtain ⟨now, later⟩ := List.forall_mem_cons.mp within
      rw [lzmaChunks]
      cases started : startChunk s chunk with
      | none => exact ⟨[], rfl, .nil⟩
      | some begun =>
          obtain ⟨paused, size⟩ := startChunk_spec between chunk started
          obtain ⟨outs, next, run, fits, sum, input, kept⟩ :=
            lzmaRuns_spec chunk.passes begun paused now
          rw [size.1] at sum
          rw [size.2] at input
          dsimp only
          rw [run, Option.bind_some]
          cases next with
          | none => exact ⟨[outs], rfl, .cons ⟨fits, sum, input⟩ .nil⟩
          | some after =>
              obtain ⟨paused', empty⟩ := kept after rfl
              obtain ⟨rest, ends, others⟩ := ih after
                ⟨paused'.held.buf, empty, fun _ => paused'⟩ later
              dsimp only
              rw [ends, Option.map_some]
              exact ⟨_, rfl, .cons ⟨fits, sum, input⟩ others⟩

/-- Whatever bytes a stream has and however they are handed over, a decoder that
was reset reads and writes nowhere but in its buffers and tables, ends all
loops of a pass, and takes and puts out no more than it was given and the chunk
has. -/
theorem decoder_stays_inside (s : Lzma2) (buf : s.tempBuf.length = TEMP_SIZE)
    (chunks : List Chunk)
    (within : ∀ chunk ∈ chunks, ∀ pass ∈ chunk.passes,
      pass.inPos ≤ pass.input.length) :
    ∃ outs, lzmaChunks (xzDecLzma2Reset s) chunks = some outs ∧
      List.Forall₂ ChunkFits outs (chunks.take outs.length) := by
  have between : Between (xzDecLzma2Reset s) :=
    ⟨buf, rfl, fun clear => by cases clear⟩
  exact lzmaChunks_spec chunks _ between within

/-- A chunk that spells forty zeros, in three passes. -/
def fortyZeros : Chunk :=
  ⟨0xE0, 40, 2, 93, 0x006E2847,
    [⟨[88], 0, 7⟩, ⟨[0, 0], 0, 5⟩, ⟨[0, 0], 1, 100⟩]⟩

def untouched : Lzma2 :=
  ⟨⟨⟨0, 0, [], 0, 0⟩, fun _ => 0, ⟨0, 0, 0, 0, .litLit, 0, 0, 0, 0⟩⟩,
    ⟨fun _ => 0, 0, 0, 0, 0, 4096⟩, 0, 0, 0, List.replicate TEMP_SIZE 0, true⟩

theorem decoder_stays_inside_zeros :
    lzmaChunks (xzDecLzma2Reset untouched) [fortyZeros] =
        some [[([], 1), (List.replicate 5 0, 1), (List.replicate 35 0, 1)]] ∧
      ∃ outs, lzmaChunks (xzDecLzma2Reset untouched) [fortyZeros] = some outs ∧
        List.Forall₂ ChunkFits outs ([fortyZeros].take outs.length) := by
  have within : ∀ chunk ∈ [fortyZeros], ∀ pass ∈ chunk.passes,
      pass.inPos ≤ pass.input.length := by decide
  exact ⟨by decide +kernel,
    decoder_stays_inside untouched rfl [fortyZeros] within⟩

end XR872.Lzma
