/-
The symbols of LZMA.

A turn of `lzma_main` takes at most 22 bits with probabilities and 26 direct
bits. The budget of the range decoder covers that for as long as the decoder
begins symbols, and the tables and the dictionary are not left.
-/

import XR872.Xz.RangeDecoder

namespace XR872.Lzma

open BitView
open Checked
open RangeBudget
open Xz

/-! ### The dictionary -/

def dictGetInside (dict : Dictionary) (dist : Nat) : Option Byte :=
  if 0 < dict.full ∧ dict.pos + dict.size ≤ dist then none
  else some (dictGet dict dist)

def dictPutInside (dict : Dictionary) (byte : Byte) : Option Dictionary :=
  if dict.pos < dict.size then some (dictPut dict byte) else none

/-- The loop of `dict_repeat` turns at least once and stays in the buffer. -/
def dictRepeatInside (dict : Dictionary) (len dist : Nat) :
    Option (Option (Nat × Dictionary)) :=
  if dist < dict.full ∧ dist < dict.size ∧
      ¬ (dict.pos < dict.limit ∧ dict.limit ≤ dict.size ∧ 0 < len ∧
        dist < dict.pos + dict.size) then none
  else some (dictRepeat dict len dist)

/-! ### Symbols -/

/-- The states are numbered: 3 or 6 are taken off those behind the first four. -/
def lzmaStateLiteral : LzmaState → LzmaState
  | .litLit | .matchLitLit | .repLitLit | .shortrepLitLit => .litLit
  | .matchLit => .matchLitLit
  | .repLit => .repLitLit
  | .shortrepLit => .shortrepLitLit
  | .litMatch | .nonlitMatch => .matchLit
  | .litLongrep | .nonlitRep => .repLit
  | .litShortrep => .shortrepLit

/-- One of the lowest seven states. -/
def lzmaStateIsLiteral : LzmaState → Bool
  | .litLit | .matchLitLit | .repLitLit | .shortrepLitLit => true
  | .matchLit | .repLit | .shortrepLit => true
  | _ => false

def lzmaStateMatch (state : LzmaState) : LzmaState :=
  if lzmaStateIsLiteral state then .litMatch else .nonlitMatch

def lzmaStateLongRep (state : LzmaState) : LzmaState :=
  if lzmaStateIsLiteral state then .litLongrep else .nonlitRep

def lzmaStateShortRep (state : LzmaState) : LzmaState :=
  if lzmaStateIsLiteral state then .litShortrep else .nonlitRep

def lzmaLiteralProbs (dict : Dictionary) (lzma : LzmaDec) :
    Option (Nat → Prob) :=
  (dictGetInside dict 0).map fun prevByte =>
    let low := prevByte.toNat >>> (8 - lzma.lc)
    let high := (dict.pos &&& lzma.literalPosMask) <<< lzma.lc
    .literal (low + high)

/-- The loop of `lzma_literal` behind a match. -/
def matchedFrom (probs : Nat → Prob) : Nat → Nat → Nat → Nat → Decode Nat
  | 0, _, _, _ => fun _ => none
  | turns + 1, matchByte, offset, symbol => do
      let matchBit := matchByte &&& offset
      let bit ← rcBit (probs (offset + matchBit + symbol))
      let offset :=
        if bit then offset &&& matchBit
        else offset &&& (2 ^ 32 - 1 - matchBit)
      if nextSymbol bit symbol < 0x100 then
        matchedFrom probs turns (matchByte <<< 1) offset
          (nextSymbol bit symbol)
      else pure (nextSymbol bit symbol)

/-- The symbol that `lzma_literal` reads. -/
def literalSymbol (dict : Dictionary) (lzma : LzmaDec) (probs : Nat → Prob) :
    Decode Nat :=
  if lzmaStateIsLiteral lzma.state then rcBittree probs 0x100
  else do
    let matchByte ← checked (dictGetInside dict lzma.rep0)
    matchedFrom probs 0x100 (matchByte.toNat <<< 1) 0x100 1

def lzmaLiteral (dict : Dictionary) : Decode Dictionary := do
  let s ← get
  let probs ← checked (lzmaLiteralProbs dict s.lzma)
  let symbol ← literalSymbol dict s.lzma probs
  let dict ← checked (dictPutInside dict (BitVec.ofNat 8 symbol))
  setLzma fun lzma => { lzma with state := lzmaStateLiteral lzma.state }
  pure dict

/-- A length in the tree behind its choices. -/
def lenBehind (probs : Nat → Prob) (limit base : Nat) : Decode Unit := do
  let symbol ← rcBittree probs limit
  setLzma fun lzma => { lzma with len := base + symbol - limit }

def lzmaLen (dec : LenDec) (posState : Nat) : Decode Unit := do
  let choice ← rcBit (.choice dec)
  if choice = false then
    lenBehind (.low dec posState) LEN_LOW_SYMBOLS MATCH_LEN_MIN
  else
    let choice2 ← rcBit (.choice2 dec)
    if choice2 = false then
      lenBehind (.mid dec posState) LEN_MID_SYMBOLS
        (MATCH_LEN_MIN + LEN_LOW_SYMBOLS)
    else
      lenBehind (.high dec) LEN_HIGH_SYMBOLS
        (MATCH_LEN_MIN + LEN_LOW_SYMBOLS + LEN_MID_SYMBOLS)

def lzmaGetDistState (len : Nat) : Nat :=
  if len < DIST_STATES + MATCH_LEN_MIN then len - MATCH_LEN_MIN
  else DIST_STATES - 1

/-- The distance behind its slot. -/
def distBehind (distSlot : Nat) : Decode Nat :=
  if distSlot < DIST_MODEL_START then pure distSlot
  else
    let limit := distSlot >>> 1 - 1
    let rep0 := 2 + (distSlot &&& 1)
    if distSlot < DIST_MODEL_END then
      rcBittreeReverse
        (fun index => .distSpecial (rep0 <<< limit + index - distSlot - 1))
        (rep0 <<< limit) limit
    else do
      let rep0 ← rcDirect (limit - ALIGN_BITS) rep0
      rcBittreeReverse .distAlign (rep0 <<< ALIGN_BITS % 2 ^ 32) ALIGN_BITS

def lzmaMatch (posState : Nat) : Decode Unit := do
  setLzma fun lzma =>
    { lzma with
      state := lzmaStateMatch lzma.state
      rep3 := lzma.rep2
      rep2 := lzma.rep1
      rep1 := lzma.rep0 }
  lzmaLen .match_ posState
  let s ← get
  let symbol ← rcBittree (.distSlot (lzmaGetDistState s.lzma.len)) DIST_SLOTS
  let rep0 ← distBehind (symbol - DIST_SLOTS)
  setLzma fun lzma => { lzma with rep0 := rep0 }

def lzmaLongRep (posState : Nat) : Decode Unit := do
  setLzma fun lzma => { lzma with state := lzmaStateLongRep lzma.state }
  lzmaLen .rep posState

def lzmaRepMatch (posState : Nat) : Decode Unit := do
  let s ← get
  let rep0 ← rcBit (.isRep0 s.lzma.state)
  if rep0 = false then
    let long ← rcBit (.isRep0Long s.lzma.state posState)
    if long = false then
      setLzma fun lzma =>
        { lzma with state := lzmaStateShortRep lzma.state, len := 1 }
    else lzmaLongRep posState
  else
    let rep1 ← rcBit (.isRep1 s.lzma.state)
    if rep1 = false then
      setLzma fun lzma => { lzma with rep1 := lzma.rep0, rep0 := lzma.rep1 }
      lzmaLongRep posState
    else
      let rep2 ← rcBit (.isRep2 s.lzma.state)
      if rep2 = false then
        setLzma fun lzma =>
          { lzma with
            rep2 := lzma.rep1
            rep1 := lzma.rep0
            rep0 := lzma.rep2 }
      else
        setLzma fun lzma =>
          { lzma with
            rep3 := lzma.rep2
            rep2 := lzma.rep1
            rep1 := lzma.rep0
            rep0 := lzma.rep3 }
      lzmaLongRep posState

/-- The repetition of `len` bytes; `none` is an invalid distance. -/
def repeatBytes (dict : Dictionary) : Decode (Option Dictionary) := do
  let s ← get
  let repeated ← checked (dictRepeatInside dict s.lzma.len s.lzma.rep0)
  match repeated with
  | none => pure none
  | some (len, dict) =>
      setLzma fun lzma => { lzma with len := len }
      pure (some dict)

/-- A turn of the loop of `lzma_main`; `none` is an invalid distance. -/
def lzmaTurn (dict : Dictionary) : Decode (Option Dictionary) := do
  let s ← get
  let posState := dict.pos &&& s.lzma.posMask
  let matched ← rcBit (.isMatch s.lzma.state posState)
  if matched = false then
    let dict ← lzmaLiteral dict
    pure (some dict)
  else
    let rep ← rcBit (.isRep s.lzma.state)
    if rep then lzmaRepMatch posState else lzmaMatch posState
    repeatBytes dict

def lzmaLoop : Nat → Dictionary → Decode (Bool × Dictionary)
  | 0, _ => fun _ => none
  | turns + 1, dict => do
      let s ← get
      if dictHasSpace dict ∧ s.rc.inPos ≤ s.rc.inLimit then
        let next ← lzmaTurn dict
        match next with
        | none => pure (false, dict)
        | some dict => lzmaLoop turns dict
      else
        rcNormalize
        pure (true, dict)

/-- The pending repetition of an earlier call is finished first. -/
def lzmaMain (dict : Dictionary) : Decode (Bool × Dictionary) := do
  let s ← get
  if dictHasSpace dict ∧ 0 < s.lzma.len then
    let repeated ← repeatBytes dict
    lzmaLoop (dict.limit - dict.pos + 1) (repeated.getD dict)
  else lzmaLoop (dict.limit - dict.pos + 1) dict

variable {source : Source} {amount : ℚ} {lzma : LzmaDec}

/-! ### What a symbol keeps -/

/-- What `lzma_props` lets pass. -/
structure Props (lzma : LzmaDec) : Prop where
  lc_le : lzma.lc ≤ 8
  literal : 2 ^ lzma.lc * (lzma.literalPosMask + 1) ≤ LITERAL_CODERS_MAX
  posMask_lt : lzma.posMask < POS_STATES_MAX

structure Inside (dict : Dictionary) : Prop where
  pos_le : dict.pos ≤ dict.limit
  limit_le : dict.limit ≤ dict.size
  full_le : dict.full ≤ dict.size

def Rested (lzma : LzmaDec) (dict : Dictionary) : Prop :=
  lzmaStateIsLiteral lzma.state = true ∨ lzma.rep0 < dict.full

theorem setLzma_triple (change : LzmaDec → LzmaDec) :
    Triple (Ok source amount lzma) (setLzma change) fun _ =>
      Ok source amount (change lzma) := by
  intro s ok
  exact ⟨(), _, rfl, ok.input, ok.limit, ok.le_inPos, ok.inPos_le, ok.enough,
    ok.ready, ok.range_lt, ok.probs, congrArg change ok.lzma⟩

theorem get_triple {α : Type} {next : Coder → Decode α}
    {post : α → Coder → Prop}
    (rest : ∀ s, s.lzma = lzma → Triple (Ok source amount lzma) (next s) post) :
    Triple (Ok source amount lzma) (get >>= next) post := by
  intro s ok
  exact rest s ok.lzma s ok

theorem cheaper {less : ℚ} {α : Type} {program : Decode α}
    {post : α → Coder → Prop} (smaller : less ≤ amount)
    (triple : Triple (Ok source less lzma) program post) :
    Triple (Ok source amount lzma) program post :=
  triple.pre fun _ ok => ok.mono smaller

theorem lenBehind_triple {probs : Nat → Prob} {limit : Nat} (base bits : Nat)
    (isLimit : limit = 2 ^ (bits + 1))
    (inside : ∀ index, 0 < index → index < limit →
      (probs index).inside = true) (spare direct : Nat) (some_ : 0 < base) :
    Triple (Ok source (loss (spare + (bits + 1)) direct) lzma)
      (lenBehind probs limit base) fun _ s => ∃ len, 0 < len ∧
        Ok source (loss spare direct) { lzma with len := len } s := by
  refine (rcBittree_triple bits isLimit inside spare direct).bind
    fun symbol => ?_
  refine (Triple.given fun bounds => ?_).pre fun s holds =>
    ⟨holds.2, holds.1⟩
  refine (setLzma_triple _).conseq (fun _ ok => ok) fun _ s ok => ?_
  exact ⟨base + symbol - limit, by omega, ok⟩

theorem lzmaLen_triple (dec : LenDec) {posState : Nat}
    (small : posState < POS_STATES_MAX) (spare direct : Nat) :
    Triple (Ok source (loss (spare + 10) direct) lzma) (lzmaLen dec posState)
      fun _ s => ∃ len, 0 < len ∧
        Ok source (loss spare direct) { lzma with len := len } s := by
  refine (rcBit_triple rfl (spare + 9) direct).bind fun choice => ?_
  split
  · refine cheaper (loss_mono (by omega) (Nat.le_refl direct))
      (lenBehind_triple MATCH_LEN_MIN 2 rfl ?_ spare direct (by decide))
    intro index _ below
    exact (Bool.and_eq_true_iff).mpr
      ⟨decide_eq_true small, decide_eq_true below⟩
  · refine (rcBit_triple rfl (spare + 8) direct).bind fun choice2 => ?_
    split
    · refine cheaper (loss_mono (by omega) (Nat.le_refl direct))
        (lenBehind_triple (MATCH_LEN_MIN + LEN_LOW_SYMBOLS) 2 rfl ?_ spare
          direct (by decide))
      intro index _ below
      exact (Bool.and_eq_true_iff).mpr
        ⟨decide_eq_true small, decide_eq_true below⟩
    · refine lenBehind_triple _ 7 rfl ?_ spare direct (by decide)
      intro index _ below
      exact decide_eq_true below

theorem distBehind_triple {distSlot : Nat} (small : distSlot < DIST_SLOTS) :
    Triple (Ok source (loss 4 26) lzma) (distBehind distSlot) fun _ =>
      Ok source (loss 0 0) lzma := by
  have half : distSlot >>> 1 = distSlot / 2 := by
    rw [Nat.shiftRight_eq_div_pow, pow_one]
  unfold DIST_SLOTS at small
  unfold distBehind
  by_cases start : distSlot < DIST_MODEL_START
  · rw [if_pos start]
    exact Triple.pure _ fun s ok => ok.mono (loss_mono (by omega) (by omega))
  · rw [if_neg start]
    unfold DIST_MODEL_START at start
    dsimp only
    by_cases special : distSlot < DIST_MODEL_END
    · rw [if_pos special]
      unfold DIST_MODEL_END at special
      obtain ⟨bits, isLimit⟩ : ∃ bits, distSlot >>> 1 - 1 = bits + 1 :=
        ⟨distSlot >>> 1 - 2, by omega⟩
      have five : loss (0 + (bits + 1)) 0 ≤ loss 4 26 :=
        calc loss (0 + (bits + 1)) 0 ≤ loss (4 + 1) 0 :=
              loss_mono (by omega) (Nat.le_refl 0)
          _ ≤ loss 4 (0 + 6) := loss_trade 4 0
          _ ≤ loss 4 26 := loss_mono (Nat.le_refl 4) (by omega)
      rw [isLimit]
      refine cheaper five (rcBittreeReverse_triple bits _ ?_ 0 0)
      intro index positive below
      have inside : (2 + (distSlot &&& 1)) <<< (bits + 1) + index -
          distSlot - 1 < 114 := by
        rw [half] at isLimit
        interval_cases distSlot <;> (
          obtain rfl : bits = _ := (Nat.succ.inj isLimit).symm
          simp at below ⊢
          omega)
      exact decide_eq_true inside
    · rw [if_neg special]
      unfold DIST_MODEL_END at special
      obtain ⟨limit, isLimit⟩ :
          ∃ limit, distSlot >>> 1 - 1 - ALIGN_BITS = limit + 1 :=
        ⟨distSlot >>> 1 - 1 - ALIGN_BITS - 1, by
          unfold ALIGN_BITS
          omega⟩
      have most : limit + 1 ≤ 26 := by
        unfold ALIGN_BITS at isLimit
        omega
      rw [isLimit]
      refine (cheaper (loss_mono (Nat.le_refl 4) (by omega))
        (rcDirect_triple 4 0 limit _)).bind fun rep0 => ?_
      refine rcBittreeReverse_triple 3 _ ?_ 0 0
      intro index _ below
      exact decide_eq_true below

theorem lzmaGetDistState_lt (len : Nat) : lzmaGetDistState len < DIST_STATES := by
  unfold lzmaGetDistState DIST_STATES MATCH_LEN_MIN
  split <;> omega

/-- A match takes twenty bits with probabilities and 26 direct bits at most. -/
theorem lzmaMatch_triple (props : Props lzma) {posState : Nat}
    (small : posState < POS_STATES_MAX) :
    Triple (Ok source (loss 20 26) lzma) (lzmaMatch posState) fun _ s =>
      ∃ lzma, (Props lzma ∧ 0 < lzma.len) ∧ Ok source (loss 0 0) lzma s := by
  refine (setLzma_triple _).bind fun _ => ?_
  refine (lzmaLen_triple .match_ small 10 26).bind fun _ => ?_
  refine Triple.some_ fun len => Triple.given fun some_ => ?_
  refine get_triple fun now isNow => ?_
  refine (rcBittree_triple 5 rfl ?_ 4 26).bind fun symbol => ?_
  · intro index _ below
    exact (Bool.and_eq_true_iff).mpr
      ⟨decide_eq_true (lzmaGetDistState_lt _), decide_eq_true below⟩
  refine (Triple.given fun bounds => ?_).pre fun s holds =>
    ⟨holds.2, holds.1⟩
  have slot : symbol - DIST_SLOTS < DIST_SLOTS := by
    unfold DIST_SLOTS at bounds ⊢
    omega
  refine (distBehind_triple slot).bind fun rep0 => ?_
  refine (setLzma_triple _).conseq (fun _ ok => ok) fun _ s ok => ?_
  refine ⟨_, ?_, ok⟩
  exact ⟨⟨props.lc_le, props.literal, props.posMask_lt⟩, some_⟩

theorem lzmaLongRep_triple (props : Props lzma) {posState : Nat}
    (small : posState < POS_STATES_MAX) :
    Triple (Ok source (loss 10 0) lzma) (lzmaLongRep posState) fun _ s =>
      ∃ lzma, (Props lzma ∧ 0 < lzma.len) ∧ Ok source (loss 0 0) lzma s := by
  refine (setLzma_triple _).bind fun _ => ?_
  refine (lzmaLen_triple .rep small 0 0).conseq (fun _ ok => ok) fun _ s ends => ?_
  obtain ⟨len, some_, ok⟩ := ends
  refine ⟨_, ?_, ok⟩
  exact ⟨⟨props.lc_le, props.literal, props.posMask_lt⟩, some_⟩

theorem lzmaRepMatch_triple (props : Props lzma) {posState : Nat}
    (small : posState < POS_STATES_MAX) :
    Triple (Ok source (loss 13 0) lzma) (lzmaRepMatch posState) fun _ s =>
      ∃ lzma, (Props lzma ∧ 0 < lzma.len) ∧ Ok source (loss 0 0) lzma s := by
  refine get_triple fun now isNow => ?_
  refine (rcBit_triple rfl 12 0).bind fun rep0 => ?_
  split
  · have inside : (Prob.isRep0Long now.lzma.state posState).inside = true :=
      decide_eq_true small
    refine (rcBit_triple inside 11 0).bind fun long => ?_
    split
    · refine cheaper (loss_mono (Nat.zero_le 11) (Nat.le_refl 0))
        ((setLzma_triple _).conseq (fun _ ok => ok) fun _ s ok => ?_)
      refine ⟨_, ?_, ok⟩
      exact ⟨⟨props.lc_le, props.literal, props.posMask_lt⟩, Nat.succ_pos 0⟩
    · exact cheaper (loss_mono (Nat.le_succ 10) (Nat.le_refl 0))
        (lzmaLongRep_triple props small)
  · refine (rcBit_triple rfl 11 0).bind fun rep1 => ?_
    split
    · refine cheaper (loss_mono (Nat.le_succ 10) (Nat.le_refl 0))
        ((setLzma_triple _).bind fun _ => ?_)
      refine lzmaLongRep_triple ?_ small
      exact ⟨props.lc_le, props.literal, props.posMask_lt⟩
    · refine (rcBit_triple rfl 10 0).bind fun rep2 => ?_
      split
      · refine (setLzma_triple _).bind fun _ => ?_
        refine lzmaLongRep_triple ?_ small
        exact ⟨props.lc_le, props.literal, props.posMask_lt⟩
      · refine (setLzma_triple _).bind fun _ => ?_
        refine lzmaLongRep_triple ?_ small
        exact ⟨props.lc_le, props.literal, props.posMask_lt⟩

/-! ### Turns -/

structure Advanced (dict after : Dictionary) : Prop where
  inside : Inside after
  further : dict.pos < after.pos
  limit : after.limit = dict.limit
  size : after.size = dict.size
  start : after.start = dict.start

theorem repeatFrom_pos (size : Nat) :
    ∀ left buf pos back, (repeatFrom size left buf pos back).2 = pos + left := by
  intro left
  induction left with
  | zero => exact fun _ _ _ => rfl
  | succ left ih =>
      intro buf pos back
      rw [repeatFrom, ih]
      omega

theorem dictRepeat_advanced {dict after : Dictionary} {len dist left : Nat}
    (inside : Inside dict) (space : dict.pos < dict.limit) (some_ : 0 < len)
    (done : dictRepeat dict len dist = some (left, after)) :
    Advanced dict after ∧ dist < after.full := by
  obtain ⟨pos_le, limit_le, full_le⟩ := inside
  unfold dictRepeat at done
  by_cases refused : dict.full ≤ dist ∨ dict.size ≤ dist
  · rw [if_pos refused] at done
    cases done
  · have turns : min (dict.limit - dict.pos) len ≠ 0 := by omega
    rw [if_neg refused] at done
    dsimp only at done
    rw [if_neg turns, repeatFrom_pos] at done
    injection done with pair
    injection pair with _ isAfter
    subst isAfter
    refine ⟨⟨⟨?_, limit_le, ?_⟩, ?_, rfl, rfl, rfl⟩, ?_⟩
    · dsimp only
      omega
    · dsimp only
      split <;> omega
    · dsimp only
      omega
    · dsimp only
      split <;> omega

/-- A repetition that was refused changes nothing. -/
def Repeated (source : Source) (lzma : LzmaDec) (dict : Dictionary) :
    Option Dictionary → Coder → Prop
  | none, s => Ok source (loss 0 0) lzma s
  | some after, s => ∃ lzma, (Props lzma ∧ Rested lzma after ∧
      Advanced dict after) ∧ Ok source (loss 0 0) lzma s

/-- A turn ends at an invalid distance, or it goes on. -/
def Turned (source : Source) (dict : Dictionary) :
    Option Dictionary → Coder → Prop
  | none, s => ∃ lzma, Ok source (loss 0 0) lzma s
  | some after, s => ∃ lzma, (Props lzma ∧ Rested lzma after ∧
      Advanced dict after) ∧ Ok source (loss 0 0) lzma s

theorem repeatBytes_triple {dict : Dictionary} (props : Props lzma)
    (inside : Inside dict) (space : dict.pos < dict.limit)
    (some_ : 0 < lzma.len) :
    Triple (Ok source (loss 0 0) lzma) (repeatBytes dict)
      (Repeated source lzma dict) := by
  refine get_triple fun now isNow => ?_
  have bounds := inside.full_le
  have limits := inside.limit_le
  have meaning : dictRepeatInside dict now.lzma.len now.lzma.rep0 =
      some (dictRepeat dict now.lzma.len now.lzma.rep0) := by
    unfold dictRepeatInside
    rw [isNow, if_neg]
    intro broken
    exact broken.2.2 ⟨space, limits, some_, by omega⟩
  rw [isNow] at meaning
  rw [isNow]
  refine Triple.checked meaning ?_
  cases repeated : dictRepeat dict lzma.len lzma.rep0 with
  | none => exact Triple.pure _ fun s ok => ok
  | some result =>
      obtain ⟨left, after⟩ := result
      obtain ⟨advanced, within⟩ :=
        dictRepeat_advanced inside space some_ repeated
      refine (setLzma_triple _).bind fun _ => ?_
      refine Triple.pure _ fun s ok => ⟨_, ⟨?_, ?_, advanced⟩, ok⟩
      · exact ⟨props.lc_le, props.literal, props.posMask_lt⟩
      · exact Or.inr within

theorem Ok.refreshed {s : Coder} (ok : Ok source amount lzma s)
    (within : s.rc.inPos ≤ s.rc.inLimit) :
    Ok source (loss 22 26) lzma s := by
  refine { ok with enough := ?_ }
  have apart := source.apart
  have limit := ok.limit
  have ready : (2 * RC_TOP_VALUE : ℚ) ≤ 133 * s.rc.range := by
    exact_mod_cast ok.ready
  have power : (256 : ℚ) ^ 21 ≤ 256 ^ (source.stop - s.rc.inPos) :=
    pow_le_pow_right₀ (by norm_num) (by omega)
  have least : (2 * RC_TOP_VALUE / 133 : ℚ) ≤ s.rc.range := by linarith
  have worst : loss 22 26 * RC_TOP_VALUE ≤
      (2 * RC_TOP_VALUE / 133 : ℚ) * 256 ^ 21 := by
    unfold loss RC_TOP_VALUE
    norm_num
  have both : (2 * RC_TOP_VALUE / 133 : ℚ) * 256 ^ 21 ≤
      s.rc.range * 256 ^ (source.stop - s.rc.inPos) :=
    mul_le_mul least power (by positivity) (by positivity)
  exact worst.trans both

theorem dictGetInside_eq (dict : Dictionary) (dist : Nat)
    (within : 0 < dict.full → dist < dict.pos + dict.size) :
    dictGetInside dict dist = some (dictGet dict dist) := by
  unfold dictGetInside
  rw [if_neg]
  intro outside
  have inside := within outside.1
  omega

theorem lzmaLiteralProbs_inside {dict : Dictionary} (props : Props lzma)
    (some_ : 0 < dict.size) :
    ∃ coder, coder < LITERAL_CODERS_MAX ∧
      lzmaLiteralProbs dict lzma = some (.literal coder) := by
  have found : dictGetInside dict 0 = some (dictGet dict 0) :=
    dictGetInside_eq dict 0 fun _ => by omega
  refine ⟨_, ?_, by
    unfold lzmaLiteralProbs
    rw [found, Option.map_some]⟩
  have byte := (dictGet dict 0).isLt
  have low : (dictGet dict 0).toNat >>> (8 - lzma.lc) < 2 ^ lzma.lc := by
    rw [Nat.shiftRight_eq_div_pow, Nat.div_lt_iff_lt_mul (Nat.two_pow_pos _),
      ← pow_add, Nat.add_sub_of_le props.lc_le]
    exact byte
  have high : (dict.pos &&& lzma.literalPosMask) <<< lzma.lc ≤
      lzma.literalPosMask * 2 ^ lzma.lc := by
    rw [Nat.shiftLeft_eq]
    exact Nat.mul_le_mul_right _ Nat.and_le_right
  have both := props.literal
  rw [Nat.mul_add, Nat.mul_one, Nat.mul_comm] at both
  omega

theorem matchBit_cases (matchByte : Nat) {offset : Nat}
    (either : offset = 0 ∨ offset = 0x100) :
    matchByte &&& offset = 0 ∨ matchByte &&& offset = offset := by
  cases either with
  | inl zero =>
      rw [zero, Nat.and_zero]
      exact Or.inl rfl
  | inr set_ =>
      have power : (0x100 : Nat) = 2 ^ 8 := rfl
      rw [set_, power, Nat.and_two_pow]
      cases matchByte.testBit 8 with
      | false => exact Or.inl rfl
      | true => exact Or.inr rfl

theorem nextOffset_cases {offset matchBit : Nat} (bit : Bool)
    (either : offset = 0 ∨ offset = 0x100)
    (same : matchBit = 0 ∨ matchBit = offset) :
    (if bit then offset &&& matchBit
      else offset &&& (2 ^ 32 - 1 - matchBit)) = 0 ∨
    (if bit then offset &&& matchBit
      else offset &&& (2 ^ 32 - 1 - matchBit)) = 0x100 := by
  obtain rfl | rfl := either <;> obtain rfl | rfl := same <;>
    cases bit <;> simp

theorem literal_inside {coder index : Nat} (small : coder < LITERAL_CODERS_MAX)
    (within : index < LITERAL_CODER_SIZE) :
    (Prob.literal coder index).inside = true :=
  (Bool.and_eq_true_iff).mpr ⟨decide_eq_true small, decide_eq_true within⟩

/-- The place behind a match is one of the three parts of the table. -/
theorem matched_inside {coder offset symbol : Nat} (matchByte : Nat)
    (small : coder < LITERAL_CODERS_MAX)
    (either : offset = 0 ∨ offset = 0x100) (below : symbol < 0x100) :
    (Prob.literal coder
      (offset + (matchByte &&& offset) + symbol)).inside = true := by
  have place := matchBit_cases matchByte either
  apply literal_inside small
  unfold LITERAL_CODER_SIZE
  omega

theorem matchedFrom_triple {coder : Nat} (small : coder < LITERAL_CODERS_MAX) :
    ∀ bits turns matchByte offset symbol low, 0 < low →
      0x100 = low * 2 ^ (bits + 1) → bits < turns →
      low ≤ symbol → symbol < 2 * low → (offset = 0 ∨ offset = 0x100) →
      Triple (Ok source (loss (bits + 1) 0) lzma)
        (matchedFrom (.literal coder) turns matchByte offset symbol) fun _ =>
          Ok source (loss 0 0) lzma := by
  intro bits
  induction bits with
  | zero =>
      intro turns matchByte offset symbol low positive isLimit enough least most
        either
      obtain ⟨left, rfl⟩ : ∃ left, turns = left + 1 := ⟨turns - 1, by omega⟩
      have inside := matched_inside matchByte small either
        (by omega : symbol < 0x100)
      refine (rcBit_triple inside 0 0).bind fun bit => ?_
      obtain ⟨reached, below⟩ := nextSymbol_bounds bit least most
      dsimp only
      rw [if_neg (by omega)]
      exact Triple.pure _ fun s ok => ok
  | succ bits ih =>
      intro turns matchByte offset symbol low positive isLimit enough least most
        either
      obtain ⟨left, rfl⟩ : ∃ left, turns = left + 1 := ⟨turns - 1, by omega⟩
      obtain ⟨four, more⟩ := levels_le isLimit
      have place := matchBit_cases matchByte either
      have inside := matched_inside matchByte small either
        (by omega : symbol < 0x100)
      refine (rcBit_triple inside (bits + 1) 0).bind fun bit => ?_
      obtain ⟨reached, below⟩ := nextSymbol_bounds bit least most
      dsimp only
      rw [if_pos (by omega)]
      exact ih left _ _ _ (2 * low) (by omega) four (by omega) reached below
        (nextOffset_cases bit either place)

theorem lzmaStateLiteral_isLiteral (state : LzmaState) :
    lzmaStateIsLiteral (lzmaStateLiteral state) = true := by
  cases state <;> rfl

theorem literalSymbol_triple {dict : Dictionary} {coder : Nat}
    (small : coder < LITERAL_CODERS_MAX) (inside : Inside dict)
    (rested : Rested lzma dict) :
    Triple (Ok source (loss 8 0) lzma)
      (literalSymbol dict lzma (.literal coder)) fun _ =>
        Ok source (loss 0 0) lzma := by
  unfold literalSymbol
  by_cases literal : lzmaStateIsLiteral lzma.state = true
  · rw [if_pos literal]
    refine (rcBittree_triple 7 rfl ?_ 0 0).conseq (fun _ ok => ok)
      fun _ s ends => ends.1
    intro index _ below
    apply literal_inside small
    unfold LITERAL_CODER_SIZE
    omega
  · have taken : lzma.rep0 < dict.full := rested.resolve_left literal
    have full_le := inside.full_le
    have byte := dictGetInside_eq dict lzma.rep0 fun _ => by omega
    rw [if_neg literal]
    refine Triple.checked byte ?_
    exact matchedFrom_triple small 7 _ _ _ _ 1 (Nat.succ_pos 0) rfl
      (by omega) (Nat.le_refl 1) (Nat.lt_succ_self 1) (Or.inr rfl)

theorem lzmaLiteral_triple {dict : Dictionary} (props : Props lzma)
    (inside : Inside dict) (rested : Rested lzma dict)
    (space : dict.pos < dict.limit) :
    Triple (Ok source (loss 8 0) lzma) (lzmaLiteral dict) fun after s =>
      ∃ lzma, (Props lzma ∧ Rested lzma after ∧ Advanced dict after) ∧
        Ok source (loss 0 0) lzma s := by
  have limit_le := inside.limit_le
  have full_le := inside.full_le
  have some_ : 0 < dict.size := by omega
  obtain ⟨coder, small, found⟩ := lzmaLiteralProbs_inside props some_
  refine get_triple fun now isNow => ?_
  rw [isNow]
  refine Triple.checked found ?_
  refine (literalSymbol_triple small inside rested).bind fun symbol => ?_
  have put : dictPutInside dict (BitVec.ofNat 8 symbol) =
      some (dictPut dict (BitVec.ofNat 8 symbol)) := by
    unfold dictPutInside
    rw [if_pos (by omega)]
  refine Triple.checked put ?_
  refine (setLzma_triple _).bind fun _ => ?_
  refine Triple.pure _ fun s ok => ⟨_, ⟨?_, ?_, ?_⟩, ok⟩
  · exact ⟨props.lc_le, props.literal, props.posMask_lt⟩
  · exact Or.inl (lzmaStateLiteral_isLiteral lzma.state)
  · refine ⟨⟨space, limit_le, ?_⟩, Nat.lt_succ_self dict.pos, rfl, rfl, rfl⟩
    unfold dictPut
    dsimp only
    split <;> omega

theorem lzmaTurn_triple {dict : Dictionary} (props : Props lzma)
    (inside : Inside dict) (rested : Rested lzma dict)
    (space : dict.pos < dict.limit) :
    Triple (Ok source (loss 22 26) lzma) (lzmaTurn dict)
      (Turned source dict) := by
  refine get_triple fun now isNow => ?_
  have posState : dict.pos &&& now.lzma.posMask < POS_STATES_MAX := by
    rw [isNow]
    exact Nat.lt_of_le_of_lt Nat.and_le_right props.posMask_lt
  have inTable : (Prob.isMatch now.lzma.state
      (dict.pos &&& now.lzma.posMask)).inside = true := decide_eq_true posState
  refine (rcBit_triple inTable 21 26).bind fun matched => ?_
  split
  · refine cheaper (loss_mono (by omega : 8 ≤ 21) (Nat.zero_le 26)) ?_
    refine (lzmaLiteral_triple props inside rested space).bind fun after => ?_
    exact Triple.pure _ fun s ends => ends
  · refine (rcBit_triple rfl 20 26).bind fun rep => ?_
    have behind : ∀ next : Decode Unit,
        Triple (Ok source (loss 20 26) lzma) next (fun _ s =>
          ∃ lzma, (Props lzma ∧ 0 < lzma.len) ∧ Ok source (loss 0 0) lzma s) →
        Triple (Ok source (loss 20 26) lzma) (next >>= fun _ => repeatBytes dict)
          (Turned source dict) := by
      intro next symbol
      refine symbol.bind fun _ => ?_
      refine Triple.some_ fun lzma => Triple.given fun facts => ?_
      refine (repeatBytes_triple facts.1 inside space facts.2).conseq
        (fun _ ok => ok) fun repeated s ends => ?_
      cases repeated with
      | none => exact ⟨lzma, ends⟩
      | some after => exact ends
    split
    · refine behind _ (cheaper ?_ (lzmaRepMatch_triple props posState))
      exact loss_mono (by omega) (Nat.zero_le 26)
    · exact behind _ (lzmaMatch_triple props posState)

/-- What holds when `lzma_main` returns. -/
def Ended (source : Source) (dict : Dictionary) (result : Bool × Dictionary)
    (s : Coder) : Prop :=
  ∃ lzma, Ok source 1 lzma s ∧
    (result.1 = true → RC_TOP_VALUE ≤ s.rc.range ∧ Props lzma ∧
      Rested lzma result.2 ∧ Inside result.2 ∧ dict.pos ≤ result.2.pos ∧
      result.2.limit = dict.limit ∧ result.2.size = dict.size ∧
      result.2.start = dict.start)

theorem loss_nothing : loss 0 0 = 1 := by
  rw [loss, pow_zero, pow_zero, one_mul]

theorem lzmaLoop_triple (dict : Dictionary) :
    ∀ turns now lzma, Props lzma → Rested lzma now → Inside now →
      dict.pos ≤ now.pos → now.limit = dict.limit → now.size = dict.size →
      now.start = dict.start → now.limit - now.pos < turns →
      Triple (Ok source (loss 0 0) lzma) (lzmaLoop turns now)
        (Ended source dict) := by
  intro turns
  induction turns with
  | zero =>
      intro now lzma _ _ _ _ _ _ _ enough
      exact absurd enough (Nat.not_lt_zero _)
  | succ turns ih =>
      intro now lzma props rested inside further limit size start enough
      refine Triple.get fun s ok => ?_
      by_cases goes : dictHasSpace now = true ∧ s.rc.inPos ≤ s.rc.inLimit
      · have space : now.pos < now.limit := of_decide_eq_true goes.1
        rw [if_pos goes]
        refine (lzmaTurn_triple props inside rested space).pre
          (fun _ same => same ▸ ok.refreshed goes.2) |>.bind fun next => ?_
        cases next with
        | none =>
            refine Triple.pure _ fun s ends => ?_
            obtain ⟨after, ok⟩ := ends
            exact ⟨after, loss_nothing ▸ ok, fun done => by cases done⟩
        | some after =>
            refine Triple.some_ fun lzma => Triple.given fun facts => ?_
            obtain ⟨props, rested, advanced⟩ := facts
            have longer := advanced.further
            have same := advanced.limit
            refine ih after lzma props rested advanced.inside (by omega)
              (same.trans limit) (advanced.size.trans size)
              (advanced.start.trans start) ?_
            omega
      · rw [if_neg goes]
        refine ((rcNormalize_triple (one_le_loss 0 0)).pre
          fun _ same => same ▸ ok).bind fun _ => ?_
        refine Triple.pure _ fun s ends => ⟨lzma, loss_nothing ▸ ends.1, ?_⟩
        intro _
        exact ⟨ends.2, props, rested, inside, further, limit, size, start⟩

/-- From any state between two symbols, with any input of which the decoder may
read 21 bytes beyond its limit. -/
theorem lzmaMain_triple {dict : Dictionary} (props : Props lzma)
    (rested : Rested lzma dict) (inside : Inside dict) :
    Triple (Ok source 1 lzma) (lzmaMain dict) (Ended source dict) := by
  rw [← loss_nothing]
  refine get_triple fun now isNow => ?_
  rw [isNow]
  by_cases goes : dictHasSpace dict = true ∧ 0 < lzma.len
  · have space : dict.pos < dict.limit := of_decide_eq_true goes.1
    rw [if_pos goes]
    refine (repeatBytes_triple props inside space goes.2).bind fun repeated => ?_
    cases repeated with
    | none =>
        exact lzmaLoop_triple dict _ dict lzma props rested inside
          (Nat.le_refl _) rfl rfl rfl (Nat.lt_succ_self _)
    | some after =>
        refine Triple.some_ fun lzma => Triple.given fun facts => ?_
        obtain ⟨props, rested, advanced⟩ := facts
        have longer := advanced.further
        have same := advanced.limit
        refine lzmaLoop_triple dict _ after lzma props rested advanced.inside
          (by omega) same advanced.size advanced.start ?_
        omega
  · rw [if_neg goes]
    exact lzmaLoop_triple dict _ dict lzma props rested inside (Nat.le_refl _)
      rfl rfl rfl (Nat.lt_succ_self _)

end XR872.Lzma
