/-
The range decoder and the LZMA symbols.

A definition stops where the decoder would read beside its input, beside a
table of probabilities or beside the dictionary, or where a loop would not end.
-/

import XR872.Library.Fallible
import XR872.Library.Compression
import XR872.Xz.Dictionary

namespace XR872.Lzma

open BitView
open Checked
open RangeBudget
open Xz

def RC_TOP_VALUE : Nat := 2 ^ 24

def RC_BIT_MODEL_TOTAL : Nat := 2 ^ 11

def POS_STATES_MAX : Nat := 16

def LEN_LOW_SYMBOLS : Nat := 8

def LEN_MID_SYMBOLS : Nat := 8

def LEN_HIGH_SYMBOLS : Nat := 256

def MATCH_LEN_MIN : Nat := 2

def DIST_STATES : Nat := 4

def DIST_SLOTS : Nat := 64

def DIST_MODEL_START : Nat := 4

def DIST_MODEL_END : Nat := 14

def FULL_DISTANCES : Nat := 128

def ALIGN_BITS : Nat := 4

def ALIGN_SIZE : Nat := 16

def LITERAL_CODERS_MAX : Nat := 16

def LITERAL_CODER_SIZE : Nat := 0x300

/-- `enum lzma_state`: the symbols that came last. -/
inductive LzmaState
  | litLit
  | matchLitLit
  | repLitLit
  | shortrepLitLit
  | matchLit
  | repLit
  | shortrepLit
  | litMatch
  | litLongrep
  | litShortrep
  | nonlitMatch
  | nonlitRep
  deriving DecidableEq

/-- `struct rc_dec`, behind its first bytes. -/
structure RcDec where
  range : Nat
  code : Nat
  input : List Byte
  inPos : Nat
  inLimit : Nat

inductive LenDec
  | match_
  | rep
  deriving DecidableEq

/-- A place in the tables of `struct lzma_dec`. -/
inductive Prob
  | isMatch (state : LzmaState) (posState : Nat)
  | isRep (state : LzmaState)
  | isRep0 (state : LzmaState)
  | isRep1 (state : LzmaState)
  | isRep2 (state : LzmaState)
  | isRep0Long (state : LzmaState) (posState : Nat)
  | distSlot (distState index : Nat)
  | distSpecial (index : Nat)
  | distAlign (index : Nat)
  | choice (dec : LenDec)
  | choice2 (dec : LenDec)
  | low (dec : LenDec) (posState index : Nat)
  | mid (dec : LenDec) (posState index : Nat)
  | high (dec : LenDec) (index : Nat)
  | literal (coder index : Nat)
  deriving DecidableEq

def Prob.inside : Prob → Bool
  | .isMatch _ posState => posState < POS_STATES_MAX
  | .isRep0Long _ posState => posState < POS_STATES_MAX
  | .distSlot distState index => distState < DIST_STATES && index < DIST_SLOTS
  | .distSpecial index => index < FULL_DISTANCES - DIST_MODEL_END
  | .distAlign index => index < ALIGN_SIZE
  | .low _ posState index =>
      posState < POS_STATES_MAX && index < LEN_LOW_SYMBOLS
  | .mid _ posState index =>
      posState < POS_STATES_MAX && index < LEN_MID_SYMBOLS
  | .high _ index => index < LEN_HIGH_SYMBOLS
  | .literal coder index =>
      coder < LITERAL_CODERS_MAX && index < LITERAL_CODER_SIZE
  | _ => true

/-- `struct lzma_dec` without its tables. -/
structure LzmaDec where
  rep0 : Nat
  rep1 : Nat
  rep2 : Nat
  rep3 : Nat
  state : LzmaState
  len : Nat
  lc : Nat
  literalPosMask : Nat
  posMask : Nat

structure Coder where
  rc : RcDec
  probs : Prob → Nat
  lzma : LzmaDec

abbrev Decode := StateT Coder Option

def setLzma (change : LzmaDec → LzmaDec) : Decode Unit :=
  fun s => some ((), { s with lzma := change s.lzma })

/-! ### The range decoder -/

def rcNormalize : Decode Unit := fun s =>
  if s.rc.range < RC_TOP_VALUE then
    match s.rc.input[s.rc.inPos]? with
    | none => none
    | some byte =>
        some ((), { s with
          rc := { s.rc with
            range := s.rc.range <<< 8 % 2 ^ 32
            code := (s.rc.code <<< 8 + byte.toNat) % 2 ^ 32
            inPos := s.rc.inPos + 1 } })
  else some ((), s)

/-- `rc_bit` behind its normalization. -/
def rcSplit (prob : Prob) : Decode Bool := fun s =>
  let value := s.probs prob
  let bound := (s.rc.range >>> 11) * value % 2 ^ 32
  if prob.inside then
    if s.rc.code < bound then
      some (false,
        { s with
          rc := { s.rc with range := bound }
          probs := Function.update s.probs prob
            (value + (RC_BIT_MODEL_TOTAL - value) >>> 5) })
    else
      some (true,
        { s with
          rc := { s.rc with
            range := s.rc.range - bound
            code := s.rc.code - bound }
          probs := Function.update s.probs prob (value - value >>> 5) })
  else none

def rcBit (prob : Prob) : Decode Bool := do
  rcNormalize
  rcSplit prob

def nextSymbol (bit : Bool) (symbol : Nat) : Nat :=
  if bit then symbol <<< 1 + 1 else symbol <<< 1

def rcBittreeFrom (probs : Nat → Prob) (limit : Nat) : Nat → Nat → Decode Nat
  | 0, _ => fun _ => none
  | turns + 1, symbol => do
      let bit ← rcBit (probs symbol)
      if nextSymbol bit symbol < limit then
        rcBittreeFrom probs limit turns (nextSymbol bit symbol)
      else pure (nextSymbol bit symbol)

def rcBittree (probs : Nat → Prob) (limit : Nat) : Decode Nat :=
  rcBittreeFrom probs limit limit 1

def rcBittreeReverseFrom (probs : Nat → Prob) (limit : Nat) :
    Nat → Nat → Nat → Nat → Decode Nat
  | 0, _, _, _ => fun _ => none
  | turns + 1, symbol, dest, i => do
      let bit ← rcBit (probs symbol)
      let dest := if bit then (dest + 1 <<< i) % 2 ^ 32 else dest
      if i + 1 < limit then
        rcBittreeReverseFrom probs limit turns (nextSymbol bit symbol) dest
          (i + 1)
      else pure dest

def rcBittreeReverse (probs : Nat → Prob) (dest limit : Nat) : Decode Nat :=
  rcBittreeReverseFrom probs limit (limit + 1) 1 dest 0

/-- A turn of `rc_direct` behind its normalization. -/
def rcHalve (dest : Nat) : Decode Nat := fun s =>
  let range := s.rc.range >>> 1
  let code := (s.rc.code + 2 ^ 32 - range) % 2 ^ 32
  let mask := (2 ^ 32 - code >>> 31) % 2 ^ 32
  some ((dest <<< 1 + (mask + 1)) % 2 ^ 32,
    { s with
      rc := { s.rc with
        range := range
        code := (code + (range &&& mask)) % 2 ^ 32 } })

/-- A limit of zero would wrap. -/
def rcDirect : Nat → Nat → Decode Nat
  | 0, _ => fun _ => none
  | limit + 1, dest => do
      rcNormalize
      let dest ← rcHalve dest
      if 0 < limit then rcDirect limit dest else pure dest


/-! ### What a turn needs -/

/-- How far the range shrinks over bits with probabilities and direct bits. -/
def loss (bits direct : Nat) : ℚ := (133 / 2) ^ bits * (101 / 50) ^ direct

theorem loss_bit (bits direct : Nat) :
    loss (bits + 1) direct = 133 / 2 * loss bits direct := by
  rw [loss, loss, pow_succ']
  ring

theorem loss_direct (bits direct : Nat) :
    loss bits (direct + 1) = 101 / 50 * loss bits direct := by
  rw [loss, loss, pow_succ']
  ring

theorem loss_mono {bits bits' direct direct' : Nat} (fewer : bits ≤ bits')
    (shorter : direct ≤ direct') : loss bits direct ≤ loss bits' direct' := by
  have first : (133 / 2 : ℚ) ^ bits ≤ (133 / 2) ^ bits' :=
    pow_le_pow_right₀ (by norm_num) fewer
  have second : (101 / 50 : ℚ) ^ direct ≤ (101 / 50) ^ direct' :=
    pow_le_pow_right₀ (by norm_num) shorter
  exact mul_le_mul first second (by positivity) (by positivity)

theorem one_le_loss (bits direct : Nat) : 1 ≤ loss bits direct := by
  have whole := loss_mono (Nat.zero_le bits) (Nat.zero_le direct)
  rwa [loss, pow_zero, pow_zero, one_mul] at whole

theorem loss_trade (bits direct : Nat) :
    loss (bits + 1) direct ≤ loss bits (direct + 6) := by
  have cheaper : (133 / 2 : ℚ) ≤ (101 / 50) ^ 6 := by norm_num
  have scaled := mul_le_mul_of_nonneg_right cheaper
    (zero_le_one.trans (one_le_loss bits direct))
  rw [loss_bit]
  refine scaled.trans (le_of_eq ?_)
  rw [loss, loss, pow_add]
  ring

/-- An input, where the decoder begins and up to where it may read, and the limit
up to which it begins a symbol. -/
structure Source where
  input : List Byte
  first : Nat
  stop : Nat
  limit : Nat
  fits : stop ≤ input.length
  apart : limit + 21 ≤ stop

structure Ok (source : Source) (amount : ℚ) (lzma : LzmaDec) (s : Coder) :
    Prop where
  input : s.rc.input = source.input
  limit : s.rc.inLimit = source.limit
  le_inPos : source.first ≤ s.rc.inPos
  inPos_le : s.rc.inPos ≤ source.stop
  enough : Enough RC_TOP_VALUE 256 amount s.rc.range
    (source.stop - s.rc.inPos)
  ready : 2 * RC_TOP_VALUE ≤ 133 * s.rc.range
  range_lt : s.rc.range < 2 ^ 32
  probs : ∀ prob, 31 ≤ s.probs prob ∧ s.probs prob ≤ 2017
  lzma : s.lzma = lzma

variable {source : Source} {amount : ℚ} {lzma : LzmaDec}

theorem Ok.mono {less : ℚ} {s : Coder} (ok : Ok source amount lzma s)
    (smaller : less ≤ amount) : Ok source less lzma s :=
  { ok with enough := ok.enough.mono smaller }

theorem rcNormalize_triple (whole : 1 ≤ amount) :
    Triple (Ok source amount lzma) rcNormalize fun _ s =>
      Ok source amount lzma s ∧ RC_TOP_VALUE ≤ s.rc.range := by
  intro s ok
  unfold rcNormalize
  by_cases low : s.rc.range < RC_TOP_VALUE
  · have left := ok.enough.available_pos whole low
    have inside : s.rc.inPos < s.rc.input.length := by
      have fits := source.fits
      rw [ok.input]
      omega
    have one : source.stop - s.rc.inPos =
        source.stop - (s.rc.inPos + 1) + 1 := by omega
    have small : s.rc.range <<< 8 % 2 ^ 32 = s.rc.range * 256 := by
      rw [Nat.shiftLeft_eq]
      unfold RC_TOP_VALUE at low
      exact Nat.mod_eq_of_lt (by omega)
    have enough := ok.enough
    rw [one] at enough
    have ready := ok.ready
    rw [if_pos low, List.getElem?_eq_getElem inside]
    have le_inPos := ok.le_inPos
    refine ⟨(), _, rfl,
      ⟨ok.input, ok.limit, ?_, ?_, ?_, ?_, ?_, ok.probs, ok.lzma⟩, ?_⟩
    · dsimp only
      omega
    · dsimp only
      omega
    · dsimp only
      rw [small]
      exact enough.refill
    · dsimp only
      rw [small]
      omega
    · exact Nat.mod_lt _ (by norm_num)
    · dsimp only
      rw [small]
      unfold RC_TOP_VALUE at ready ⊢
      omega
  · rw [if_neg low]
    exact ⟨(), s, rfl, ok, Nat.le_of_not_lt low⟩

theorem split_shrinks (range value : Nat) (top : RC_TOP_VALUE ≤ range)
    (least : 31 ≤ value) (most : value ≤ 2017) :
    (range >>> 11) * value ≤ range ∧
      2 * range ≤ 133 * ((range >>> 11) * value) ∧
      2 * range ≤ 133 * (range - (range >>> 11) * value) := by
  have below := Nat.mul_le_mul_left (range >>> 11) least
  have above := Nat.mul_le_mul_left (range >>> 11) most
  generalize (range >>> 11) * value = bound at below above ⊢
  rw [Nat.shiftRight_eq_div_pow] at below above
  unfold RC_TOP_VALUE at top
  omega

theorem update_probs {probs : Prob → Nat} (prob : Prob) (value : Nat)
    (least : 31 ≤ value) (most : value ≤ 2017)
    (kept : ∀ prob, 31 ≤ probs prob ∧ probs prob ≤ 2017) (other : Prob) :
    31 ≤ Function.update probs prob value other ∧
      Function.update probs prob value other ≤ 2017 := by
  by_cases same : other = prob
  · rw [same, Function.update_self]
    exact ⟨least, most⟩
  · rw [Function.update_of_ne same]
    exact kept other

theorem rcSplit_triple {prob : Prob} (inside : prob.inside = true) :
    Triple (fun s => Ok source (133 / 2 * amount) lzma s ∧
        RC_TOP_VALUE ≤ s.rc.range) (rcSplit prob) fun _ =>
      Ok source amount lzma := by
  intro s holds
  obtain ⟨ok, top⟩ := holds
  obtain ⟨least, most⟩ := ok.probs prob
  obtain ⟨below, first, second⟩ :=
    split_shrinks s.rc.range (s.probs prob) top least most
  have range_lt := ok.range_lt
  have bound : (s.rc.range >>> 11) * s.probs prob % 2 ^ 32 =
      (s.rc.range >>> 11) * s.probs prob := Nat.mod_eq_of_lt (by omega)
  have shrunk : ∀ after : Nat, 2 * s.rc.range ≤ 133 * after →
      (s.rc.range : ℚ) ≤ 133 / 2 * after := by
    intro after small
    have small' : (2 * s.rc.range : ℚ) ≤ 133 * after := by exact_mod_cast small
    linarith
  unfold rcSplit
  dsimp only
  rw [if_pos inside, bound]
  by_cases low : s.rc.code < (s.rc.range >>> 11) * s.probs prob
  · rw [if_pos low]
    refine ⟨false, _, rfl, ok.input, ok.limit, ok.le_inPos, ok.inPos_le,
      ok.enough.shrink (by norm_num) (shrunk _ first), ?_, ?_, ?_, ok.lzma⟩
    · dsimp only
      omega
    · dsimp only
      omega
    · apply update_probs _ _ _ _ ok.probs
      · omega
      · rw [Nat.shiftRight_eq_div_pow]
        unfold RC_BIT_MODEL_TOTAL
        omega
  · rw [if_neg low]
    refine ⟨true, _, rfl, ok.input, ok.limit, ok.le_inPos, ok.inPos_le,
      ok.enough.shrink (by norm_num) (shrunk _ second), ?_, ?_, ?_, ok.lzma⟩
    · dsimp only
      omega
    · dsimp only
      omega
    · apply update_probs _ _ _ _ ok.probs
      · rw [Nat.shiftRight_eq_div_pow]
        omega
      · omega

theorem rcBit_triple {prob : Prob} (inside : prob.inside = true)
    (bits direct : Nat) :
    Triple (Ok source (loss (bits + 1) direct) lzma) (rcBit prob) fun _ =>
      Ok source (loss bits direct) lzma := by
  refine (rcNormalize_triple (one_le_loss _ _)).bind fun _ => ?_
  rw [loss_bit]
  exact rcSplit_triple inside

theorem nextSymbol_bounds (bit : Bool) {symbol low : Nat} (least : low ≤ symbol)
    (most : symbol < 2 * low) :
    2 * low ≤ nextSymbol bit symbol ∧ nextSymbol bit symbol < 2 * (2 * low) := by
  unfold nextSymbol
  rw [Nat.shiftLeft_eq]
  split <;> omega

theorem levels_le {low limit bits : Nat}
    (isLimit : limit = low * 2 ^ (bits + 1 + 1)) :
    limit = 2 * low * 2 ^ (bits + 1) ∧ 2 * (2 * low) ≤ limit := by
  have shorter : limit = 2 * low * 2 ^ (bits + 1) := by
    rw [isLimit, pow_succ']
    ring
  have one := Nat.one_le_two_pow (n := bits)
  refine ⟨shorter, ?_⟩
  rw [shorter, pow_succ']
  nlinarith

theorem rcBittreeFrom_triple {probs : Nat → Prob} {limit : Nat}
    (inside : ∀ index, 0 < index → index < limit →
      (probs index).inside = true) (spare direct : Nat) :
    ∀ bits turns low symbol, 0 < low → limit = low * 2 ^ (bits + 1) →
      bits < turns → low ≤ symbol → symbol < 2 * low →
      Triple (Ok source (loss (spare + (bits + 1)) direct) lzma)
        (rcBittreeFrom probs limit turns symbol) fun result s =>
          Ok source (loss spare direct) lzma s ∧
            limit ≤ result ∧ result < 2 * limit := by
  intro bits
  induction bits with
  | zero =>
      intro turns low symbol positive isLimit enough least most
      obtain ⟨left, rfl⟩ : ∃ left, turns = left + 1 := ⟨turns - 1, by omega⟩
      have two : limit = 2 * low := by
        rw [isLimit]
        omega
      refine (rcBit_triple (inside symbol (by omega) (by omega)) spare
        direct).bind fun bit => ?_
      obtain ⟨reached, below⟩ := nextSymbol_bounds bit least most
      rw [if_neg (by omega)]
      exact Triple.pure _ fun s ok => ⟨ok, by omega, by omega⟩
  | succ bits ih =>
      intro turns low symbol positive isLimit enough least most
      obtain ⟨left, rfl⟩ : ∃ left, turns = left + 1 := ⟨turns - 1, by omega⟩
      obtain ⟨four, more⟩ := levels_le isLimit
      refine (rcBit_triple (inside symbol (by omega) (by omega))
        (spare + (bits + 1)) direct).bind fun bit => ?_
      obtain ⟨reached, below⟩ := nextSymbol_bounds bit least most
      rw [if_pos (by omega)]
      exact ih left (2 * low) _ (by omega) four (by omega) reached below

theorem rcBittree_triple {probs : Nat → Prob} {limit : Nat} (bits : Nat)
    (isLimit : limit = 2 ^ (bits + 1))
    (inside : ∀ index, 0 < index → index < limit →
      (probs index).inside = true) (spare direct : Nat) :
    Triple (Ok source (loss (spare + (bits + 1)) direct) lzma)
      (rcBittree probs limit) fun result s =>
        Ok source (loss spare direct) lzma s ∧
          limit ≤ result ∧ result < 2 * limit := by
  have turns : bits < limit := by
    rw [isLimit]
    exact (Nat.lt_two_pow_self (n := bits)).trans
      (Nat.pow_lt_pow_right (by norm_num) (Nat.lt_succ_self bits))
  exact rcBittreeFrom_triple inside spare direct bits limit 1 1
    (Nat.succ_pos 0) (by rw [one_mul, isLimit]) turns (Nat.le_refl 1)
    (Nat.lt_succ_self 1)

theorem rcBittreeReverseFrom_triple {probs : Nat → Prob} {limit : Nat}
    (inside : ∀ index, 0 < index → index < 2 ^ limit →
      (probs index).inside = true) (spare direct : Nat) :
    ∀ bits turns symbol dest i, limit = i + (bits + 1) → bits < turns →
      2 ^ i ≤ symbol → symbol < 2 * 2 ^ i →
      Triple (Ok source (loss (spare + (bits + 1)) direct) lzma)
        (rcBittreeReverseFrom probs limit turns symbol dest i) fun _ =>
          Ok source (loss spare direct) lzma := by
  intro bits
  induction bits with
  | zero =>
      intro turns symbol dest i isLimit enough least most
      obtain ⟨left, rfl⟩ : ∃ left, turns = left + 1 := ⟨turns - 1, by omega⟩
      have positive := Nat.two_pow_pos i
      have two : 2 ^ limit = 2 * 2 ^ i := by rw [isLimit, pow_succ']
      refine (rcBit_triple (inside symbol (by omega) (by omega)) spare
        direct).bind fun bit => ?_
      dsimp only
      rw [if_neg (by omega)]
      exact Triple.pure _ fun s ok => ok
  | succ bits ih =>
      intro turns symbol dest i isLimit enough least most
      obtain ⟨left, rfl⟩ : ∃ left, turns = left + 1 := ⟨turns - 1, by omega⟩
      have positive := Nat.two_pow_pos i
      have more : 2 * 2 ^ i ≤ 2 ^ limit := by
        rw [← pow_succ']
        exact Nat.pow_le_pow_right (by norm_num) (by omega)
      refine (rcBit_triple (inside symbol (by omega) (by omega))
        (spare + (bits + 1)) direct).bind fun bit => ?_
      obtain ⟨reached, below⟩ := nextSymbol_bounds bit least most
      rw [← pow_succ'] at reached below
      dsimp only
      rw [if_pos (by omega)]
      exact ih left _ _ (i + 1) (by omega) (by omega) reached below

theorem rcBittreeReverse_triple {probs : Nat → Prob} (bits dest : Nat)
    (inside : ∀ index, 0 < index → index < 2 ^ (bits + 1) →
      (probs index).inside = true) (spare direct : Nat) :
    Triple (Ok source (loss (spare + (bits + 1)) direct) lzma)
      (rcBittreeReverse probs dest (bits + 1)) fun _ =>
        Ok source (loss spare direct) lzma :=
  rcBittreeReverseFrom_triple inside spare direct bits _ 1 dest 0 (by omega)
    (by omega) (Nat.le_refl 1) (Nat.lt_succ_self 1)

theorem rcHalve_triple (dest : Nat) :
    Triple (fun s => Ok source (101 / 50 * amount) lzma s ∧
        RC_TOP_VALUE ≤ s.rc.range) (rcHalve dest) fun _ =>
      Ok source amount lzma := by
  intro s holds
  obtain ⟨ok, top⟩ := holds
  have range_lt := ok.range_lt
  have half : s.rc.range >>> 1 = s.rc.range / 2 := by
    rw [Nat.shiftRight_eq_div_pow, pow_one]
  have shrunk : (s.rc.range : ℚ) ≤ 101 / 50 * ((s.rc.range / 2 : Nat) : ℚ) := by
    have small : 50 * s.rc.range ≤ 101 * (s.rc.range / 2) := by
      unfold RC_TOP_VALUE at top
      omega
    have small' : (50 * s.rc.range : ℚ) ≤ 101 * ((s.rc.range / 2 : Nat) : ℚ) := by
      exact_mod_cast small
    linarith
  unfold rcHalve
  dsimp only
  rw [half]
  refine ⟨_, _, rfl, ok.input, ok.limit, ok.le_inPos, ok.inPos_le,
    ok.enough.shrink (by norm_num) shrunk, ?_, ?_, ok.probs, ok.lzma⟩
  · dsimp only
    unfold RC_TOP_VALUE at top ⊢
    omega
  · dsimp only
    omega

theorem rcDirect_triple (bits direct : Nat) :
    ∀ limit dest, Triple (Ok source (loss bits (direct + (limit + 1))) lzma)
      (rcDirect (limit + 1) dest) fun _ =>
        Ok source (loss bits direct) lzma := by
  intro limit
  induction limit with
  | zero =>
      intro dest
      refine (rcNormalize_triple (one_le_loss _ _)).bind fun _ => ?_
      rw [loss_direct]
      refine (rcHalve_triple dest).bind fun dest => ?_
      exact Triple.pure _ fun s ok => ok
  | succ limit ih =>
      intro dest
      refine (rcNormalize_triple (one_le_loss _ _)).bind fun _ => ?_
      rw [← Nat.add_assoc, loss_direct]
      refine (rcHalve_triple dest).bind fun dest => ?_
      rw [if_pos (Nat.succ_pos limit)]
      exact ih dest

end XR872.Lzma
