/-
The sums of the memory in use.

Every sum is what the live mbufs that carry its flag were allocated, as long as
no space of an mbuf is cut to the width of its field, no call is charged to one
sum and refused by another, and the sums stay in the range of an `int`.
-/

import XR872.Library.Slots
import XR872.Mbuf.Geometry

namespace XR872.Mbufs

open Ledgers
open MachineInts
open Runs

inductive Account where
  | txrx
  | tx
  | rx
deriving DecidableEq, Repr

namespace Account

def sum (limit : MbufLimit) : Account → BitVec 32
  | txrx => limit.mTxrxMemSum
  | tx => limit.mTxMemSum
  | rx => limit.mRxMemSum

def bits : Account → BitVec 8
  | txrx => MBUF_GET_FLAG_MASK.setWidth 8
  | tx => MBUF_GET_FLAG_LIMIT_TX
  | rx => MBUF_GET_FLAG_LIMIT_RX

/-- Whether an mbuf with the flag is charged to the account. -/
def carries (account : Account) (flag : BitVec 8) : Bool :=
  flag &&& account.bits ≠ 0

def weight (account : Account) (block : Block) : Nat :=
  if account.carries block.mbuf.mType then block.size else 0

end Account

/-- Every sum is what its live mbufs were allocated. -/
def Accounted : Option MbufPool → Prop
  | some pool => ∀ account : Account,
      (account.sum pool.limit).toInt = total account.weight pool.live
  | none => False

/-- The sum of TX is charged before the limit of RX refuses. -/
def halfCharged (limit : MbufLimit) (flag : BitVec 8) (len : BitVec 32) :
    Bool :=
  !exceeds limit.mbufTxrxMemMax (limit.mTxrxMemSum + len) &&
    limitsTx flag && !exceeds limit.mbufTxMemMax (limit.mTxMemSum + len) &&
    limitsRx flag && exceeds limit.mbufRxMemMax (limit.mRxMemSum + len)

/-- A call of `mb_get` that is charged to all of its sums or to none, and to
none beyond the range of an `int`. -/
def GetCharges (pool : MbufPool) (len tx : BitVec 32) (malloc : Option Int) :
    Prop :=
  0 ≤ len.toInt →
    halfCharged pool.limit ((tx &&& MBUF_GET_FLAG_MASK).setWidth 8)
      (totLen len (tx &&& 1 ≠ 0)) = false ∧
    ∀ block ∈ (mbGet pool.limit len tx malloc).1,
      Account.txrx.carries block.mbuf.mType = true →
        (total Account.txrx.weight pool.live + block.size : Nat) ≤ INT_MAX

/-- The spaces that the call leaves fit 16 bits. -/
def SpacesFit (pool : MbufPool) (m : Mbuf) : MbufCall → Prop
  | .adj _ reqLen =>
      (0 ≤ reqLen.toInt → reqLen.toInt ≤ m.len →
        m.headspace + reqLen.toInt ≤ UINT16_MAX) ∧
      (reqLen.toInt < 0 → reqLen.toInt ≠ -INT_MAX - 1 ∧
        (-reqLen.toInt ≤ m.len → m.tailspace - reqLen.toInt ≤ UINT16_MAX))
  | .append _ len cp =>
      len.toInt ≤ m.tailspace → (len.toInt < 0 → cp = false) ∧
        m.tailspace - len.toInt ≤ UINT16_MAX
  | .reserve _ len headspace tailspace =>
      hasRoom m len headspace tailspace = true →
        tailspace.toNat + len.toInt ≤
          m.headspace + m.len + m.tailspace ∧
        m.headspace + m.len + m.tailspace - tailspace.toNat - len.toInt ≤
          UINT16_MAX
  | .split _ len0 malloc =>
      0 < len0.toInt → len0.toInt < m.len →
        GetCharges pool (BitVec.ofInt 32 (m.len - len0.toInt)) forRx malloc ∧
        ((mbGet pool.limit (BitVec.ofInt 32 (m.len - len0.toInt)) forRx
          malloc).1.isSome = true →
        m.tailspace + (m.len - len0.toInt) ≤ UINT16_MAX)
  | .dup _ malloc =>
      GetCharges pool (BitVec.ofInt 32 (m.len + m.headspace + m.tailspace))
        forRx malloc ∧ 0 ≤ m.len
  | _ => True

/-- The condition on a call. -/
def Charges : Option MbufPool → MbufCall → Prop
  | some pool, .get len tx malloc => GetCharges pool len tx malloc
  | some pool, call => ∀ place ∈ call.place, ∀ block ∈ pool.live[place]?,
      SpacesFit pool block.mbuf call
  | none, _ => True

instance (pool : MbufPool) (len tx : BitVec 32) (malloc : Option Int) :
    Decidable (GetCharges pool len tx malloc) :=
  inferInstanceAs (Decidable (_ → _ ∧ _))

instance (pool : MbufPool) (m : Mbuf) (call : MbufCall) :
    Decidable (SpacesFit pool m call) :=
  match call with
  | .adj .. => inferInstanceAs (Decidable (_ ∧ _))
  | .append .. | .reserve .. | .split .. => inferInstanceAs (Decidable (_ → _))
  | .dup .. => inferInstanceAs (Decidable (_ ∧ _))
  | .setLimit .. | .get .. | .prepend .. | .free .. =>
      inferInstanceAs (Decidable True)

instance (pool : Option MbufPool) (call : MbufCall) :
    Decidable (Charges pool call) :=
  match pool, call with
  | some _, .get .. => inferInstanceAs (Decidable (GetCharges ..))
  | some _, .setLimit .. | some _, .dup .. | some _, .split ..
  | some _, .adj .. | some _, .append .. | some _, .reserve ..
  | some _, .prepend .. | some _, .free .. =>
      inferInstanceAs (Decidable (∀ place ∈ _, _))
  | none, _ => inferInstanceAs (Decidable True)

/-! ### Charging and discharging -/

theorem carries_masked (account : Account) (flag : BitVec 8) :
    account.carries (flag &&& MBUF_GET_FLAG_MASK.setWidth 8) =
      account.carries flag := by
  have inside : MBUF_GET_FLAG_MASK.setWidth 8 &&& account.bits =
      account.bits := by
    cases account <;> rfl
  unfold Account.carries
  rw [BitVec.and_assoc, inside]

theorem carries_zero (account : Account) : account.carries 0 = false := by
  cases account <;> rfl

theorem carries_txrx (account : Account) (flag : BitVec 8)
    (carried : account.carries flag = true) :
    Account.txrx.carries flag = true := by
  rw [← carries_masked] at carried
  unfold Account.carries
  apply decide_eq_true
  intro none
  change flag &&& MBUF_GET_FLAG_MASK.setWidth 8 = 0 at none
  rw [none, carries_zero] at carried
  cases carried

theorem sum_mbLimitMemDec (account : Account) (limit : MbufLimit)
    (flag : BitVec 8) (len : BitVec 32)
    (limited : Account.txrx.carries flag = true) :
    account.sum (mbLimitMemDec limit flag len) =
      if account.carries flag then account.sum limit - len
      else account.sum limit := by
  unfold mbLimitMemDec
  cases account with
  | txrx =>
      rw [if_pos limited]
      cases limitsTx flag <;> cases limitsRx flag <;> rfl
  | tx =>
      change _ = if limitsTx flag then _ else _
      cases limitsTx flag <;> cases limitsRx flag <;> rfl
  | rx =>
      change _ = if limitsRx flag then _ else _
      cases limitsTx flag <;> cases limitsRx flag <;> rfl

theorem sum_mbDischarge (account : Account) (limit : MbufLimit)
    (flag : BitVec 8) (len : BitVec 32)
    (masked : flag &&& MBUF_GET_FLAG_MASK.setWidth 8 = flag) :
    account.sum (mbDischarge limit flag len) =
      if account.carries flag then account.sum limit - len
      else account.sum limit := by
  unfold mbDischarge
  by_cases none : flag = 0
  · rw [if_neg (not_not.mpr none), none, carries_zero]
    rfl
  · rw [if_pos none]
    apply sum_mbLimitMemDec
    unfold Account.carries
    apply decide_eq_true
    change flag &&& MBUF_GET_FLAG_MASK.setWidth 8 ≠ 0
    rw [masked]
    exact none

/-- The sums with a charge to all that the flag carries. -/
def charged (limit : MbufLimit) (flag : BitVec 8) (len : BitVec 32) :
    MbufLimit :=
  { limit with
    mTxrxMemSum := limit.mTxrxMemSum + len
    mTxMemSum := if limitsTx flag then limit.mTxMemSum + len
      else limit.mTxMemSum
    mRxMemSum := if limitsRx flag then limit.mRxMemSum + len
      else limit.mRxMemSum }

theorem sum_charged (account : Account) (limit : MbufLimit)
    (flag : BitVec 8) (len : BitVec 32)
    (limited : Account.txrx.carries flag = true) :
    account.sum (charged limit flag len) =
      if account.carries flag then account.sum limit + len
      else account.sum limit := by
  cases account with
  | txrx => exact (if_pos limited).symm
  | tx => rfl
  | rx => rfl

theorem mbLimitMemInc_cases (limit : MbufLimit) (flag : BitVec 8)
    (len : BitVec 32) (whole : halfCharged limit flag len = false) :
    mbLimitMemInc limit flag len = (-1, limit) ∨
      mbLimitMemInc limit flag len = (0, charged limit flag len) := by
  unfold halfCharged at whole
  unfold mbLimitMemInc charged
  cases both : exceeds limit.mbufTxrxMemMax (limit.mTxrxMemSum + len) with
  | true => exact Or.inl rfl
  | false =>
      rw [both] at whole
      cases tx : limitsTx flag with
      | false =>
          cases rx : limitsRx flag with
          | false => exact Or.inr rfl
          | true =>
              cases refused : exceeds limit.mbufRxMemMax
                  (limit.mRxMemSum + len) with
              | true => exact Or.inl (by simp [refused])
              | false => exact Or.inr (by simp [refused])
      | true =>
          cases refused : exceeds limit.mbufTxMemMax
              (limit.mTxMemSum + len) with
          | true => exact Or.inl rfl
          | false =>
              rw [tx, refused] at whole
              cases rx : limitsRx flag with
              | false => exact Or.inr rfl
              | true =>
                  rw [rx] at whole
                  have admitted : exceeds limit.mbufRxMemMax
                      (limit.mRxMemSum + len) = false := whole
                  exact Or.inr (by simp [admitted])

theorem mbCharge_cases (limit : MbufLimit) (flag : BitVec 8) (len : BitVec 32)
    (masked : flag &&& MBUF_GET_FLAG_MASK.setWidth 8 = flag)
    (whole : halfCharged limit flag len = false) :
    mbCharge limit flag len = (-1, limit) ∨
      (mbCharge limit flag len).1 = 0 ∧ ∀ account : Account,
        account.sum (mbCharge limit flag len).2 =
          if account.carries flag then account.sum limit + len
          else account.sum limit := by
  unfold mbCharge
  by_cases none : flag = 0
  · rw [if_neg (not_not.mpr none)]
    refine Or.inr ⟨rfl, fun account => ?_⟩
    rw [none, carries_zero]
    rfl
  · rw [if_pos none]
    have limited : Account.txrx.carries flag = true := by
      unfold Account.carries
      apply decide_eq_true
      change flag &&& MBUF_GET_FLAG_MASK.setWidth 8 ≠ 0
      rw [masked]
      exact none
    rcases mbLimitMemInc_cases limit flag len whole with refused | granted
    · exact Or.inl refused
    · rw [granted]
      exact Or.inr ⟨rfl, fun account => sum_charged account limit flag len
        limited⟩

/-- What `mb_get` returns and what has happened to the sums then. -/
theorem mbGet_cases (limit : MbufLimit) (len tx : BitVec 32)
    (malloc : Option Int)
    (whole : 0 ≤ len.toInt → halfCharged limit
      ((tx &&& MBUF_GET_FLAG_MASK).setWidth 8)
      (totLen len (tx &&& 1 ≠ 0)) = false) :
    (mbGet limit len tx malloc).1 = none ∧
        (∀ account : Account,
          account.sum (mbGet limit len tx malloc).2 = account.sum limit) ∨
      ∃ block, (mbGet limit len tx malloc).1 = some block ∧
        ∀ account : Account, account.sum (mbGet limit len tx malloc).2 =
          if account.carries block.mbuf.mType then
            account.sum limit + BitVec.ofNat 32 block.size
          else account.sum limit := by
  unfold mbGet
  by_cases negative : len.toInt < 0
  · rw [if_pos negative]
    exact Or.inl ⟨rfl, fun _ => rfl⟩
  · rw [if_neg negative]
    have masked : (tx &&& MBUF_GET_FLAG_MASK).setWidth 8 &&&
        MBUF_GET_FLAG_MASK.setWidth 8 =
        (tx &&& MBUF_GET_FLAG_MASK).setWidth 8 := by
      rw [← BitVec.setWidth_and, BitVec.and_assoc, BitVec.and_self]
    simp only
    rcases mbCharge_cases limit _ _ masked (whole (by omega)) with
      refused | ⟨granted, sums⟩
    · rw [refused, if_pos (by
        change (-1 : Int) ≠ 0
        decide)]
      exact Or.inl ⟨rfl, fun _ => rfl⟩
    · rw [if_neg (not_not.mpr granted)]
      cases malloc with
      | none =>
          refine Or.inl ⟨rfl, fun account => ?_⟩
          simp only [sum_mbDischarge account _ _ _ masked, sums]
          by_cases carried : account.carries
              ((tx &&& MBUF_GET_FLAG_MASK).setWidth 8) = true
          · rw [if_pos carried, if_pos carried, BitVec.add_sub_cancel]
          · rw [if_neg carried, if_neg carried]
      | some place =>
          refine Or.inr ⟨_, rfl, fun account => ?_⟩
          rw [BitVec.ofNat_toNat, BitVec.setWidth_eq]
          exact sums account

/-! ### What an mbuf gives back -/

def spread (m : Mbuf) : Int := m.len + m.headspace + m.tailspace

theorem refund_congr (m moved : Mbuf)
    (same : spread moved % 4294967296 = spread m % 4294967296) :
    refund moved = refund m := by
  unfold spread at same
  unfold refund MBUF_SIZE
  apply ofInt_congr_32
  omega

theorem spread_mbAdjHead (m : Mbuf) (increment : Int)
    (fits : 0 ≤ m.headspace - increment ∧
      m.headspace - increment ≤ UINT16_MAX) :
    spread (mbAdjHead m increment) % 4294967296 = spread m % 4294967296 := by
  unfold UINT16_MAX at fits
  unfold spread
  rw [mbAdjHead_len, mbAdjHead_headspace, mbAdjHead_tailspace]
  omega

theorem spread_mbAdjTail (m : Mbuf) (increment : Int)
    (fits : 0 ≤ m.tailspace - increment ∧
      m.tailspace - increment ≤ UINT16_MAX) :
    spread (mbAdjTail m increment) % 4294967296 = spread m % 4294967296 := by
  unfold UINT16_MAX at fits
  unfold spread
  rw [mbAdjTail_len, mbAdjTail_headspace, mbAdjTail_tailspace]
  omega

structure Kept (m moved : Mbuf) : Prop where
  type : moved.mType = m.mType
  refund : refund moved = refund m

theorem kept_refl (m : Mbuf) : Kept m m := ⟨rfl, rfl⟩

theorem kept_mbAdj (pool : MbufPool) (m : Mbuf) (place : Nat)
    (reqLen : BitVec 32) (fits : SpacesFit pool m (.adj place reqLen)) :
    Kept m (mbAdj m reqLen).2 := by
  have range := toInt_range_32 reqLen
  have heads := m.headspace_range
  have tails := m.tailspace_range
  have negated := toInt_neg_32 reqLen
  unfold SpacesFit INT_MAX at fits
  unfold mbAdj
  by_cases front : 0 ≤ reqLen.toInt
  · rw [if_pos front]
    rw [if_neg (by omega)] at negated
    by_cases short : m.len < reqLen.toInt
    · rw [if_pos short]
      exact kept_refl m
    · rw [if_neg short]
      have room := fits.1 front (by omega)
      refine ⟨rfl, refund_congr _ _ (spread_mbAdjHead m _ ?_)⟩
      omega
  · rw [if_neg front]
    obtain ⟨lowest, room⟩ := fits.2 (by omega)
    rw [if_neg (by omega)] at negated
    simp only [BitVec.neg_neg]
    by_cases short : m.len < (-reqLen).toInt
    · rw [if_pos short]
      exact kept_refl m
    · rw [if_neg short]
      have room := room (by omega)
      refine ⟨rfl, refund_congr _ _ (spread_mbAdjTail m _ ?_)⟩
      omega

theorem kept_mbAppend (pool : MbufPool) (m : Mbuf) (place : Nat)
    (len : BitVec 32) (cp : Bool)
    (fits : SpacesFit pool m (.append place len cp)) :
    ∃ done, mbAppend m len cp = some done ∧ Kept m done.2 := by
  unfold SpacesFit at fits
  unfold mbAppend
  by_cases long : m.tailspace < len.toInt
  · rw [if_pos long]
    exact ⟨_, rfl, kept_refl m⟩
  · rw [if_neg long]
    obtain ⟨noData, room⟩ := fits (by omega)
    rw [if_neg (by
      rintro ⟨data, negative⟩
      rw [noData negative] at data
      cases data)]
    refine ⟨_, rfl, rfl, refund_congr _ _ (spread_mbAdjTail m _ ?_)⟩
    omega

theorem kept_mbReserve (pool : MbufPool) (m : Mbuf) (place : Nat)
    (len : BitVec 32) (headspace tailspace : BitVec 16)
    (fits : SpacesFit pool m (.reserve place len headspace tailspace)) :
    Kept m (mbReserve m len headspace tailspace).2 := by
  unfold SpacesFit UINT16_MAX at fits
  unfold mbReserve
  by_cases room : hasRoom m len headspace tailspace = true
  · rw [if_pos room]
    obtain ⟨high, low⟩ := fits room
    have buf : (bufLen m).toInt =
        (m.headspace + m.len + m.tailspace + 2147483648) % 4294967296 -
          2147483648 := toInt_ofInt_32 _
    have head := toNat_ofInt_16
      ((bufLen m).toInt - tailspace.toNat - len.toInt)
    refine ⟨rfl, refund_congr _ _ ?_⟩
    change (len.toInt + ((BitVec.ofInt 16 _).toNat : Int) +
      (tailspace.toNat : Int)) % 4294967296 = _
    unfold spread
    rw [head]
    omega
  · rw [if_neg room]
    exact kept_refl m

theorem kept_mbPrepend (m prepended : Mbuf) (plen : BitVec 32)
    (done : mbPrepend m plen = some prepended) : Kept m prepended := by
  have heads := m.headspace_range
  rw [mbPrepend_eq] at done
  by_cases room : 0 ≤ plen.toInt ∧ plen.toInt ≤ m.headspace
  · rw [if_pos room] at done
    cases done
    refine ⟨rfl, refund_congr _ _ (spread_mbAdjHead m _ ?_)⟩
    unfold UINT16_MAX
    omega
  · rw [if_neg room] at done
    cases done

/-! ### New mbufs -/

theorem refund_mbufAt (place : Int) (len : BitVec 32) (tx : Bool)
    (flag : BitVec 8) :
    refund (mbufAt place len tx flag) = totLen len tx := by
  cases tx with
  | true =>
      unfold totLen
      rw [if_pos rfl, ← BitVec.ofInt_add]
      apply ofInt_congr_32
      change (48 + len.toInt + 68 + 16) % 4294967296 =
        (48 + len.toInt + (68 + 16)) % 4294967296
      omega
  | false =>
      apply ofInt_congr_32
      change (48 + len.toInt + 0 + 0) % 4294967296 =
        (48 + len.toInt) % 4294967296
      omega

def Refundable (block : Block) : Prop :=
  refund block.mbuf = BitVec.ofNat 32 block.size

theorem refundable_mbGet (limit : MbufLimit) (len tx : BitVec 32)
    (malloc : Option Int) (block : Block)
    (got : (mbGet limit len tx malloc).1 = some block) : Refundable block := by
  obtain ⟨-, place, -, made⟩ := mbGet_some limit
    (mbGet limit len tx malloc).2 len tx malloc block (Prod.ext got rfl)
  rw [made]
  unfold Refundable
  rw [refund_mbufAt, BitVec.ofNat_toNat, BitVec.setWidth_eq]

theorem Kept.refundable {block : Block} {moved : Mbuf}
    (kept : Kept block.mbuf moved) (refundable : Refundable block) :
    Refundable { block with mbuf := moved } :=
  kept.refund.trans refundable

theorem kept_mbPkthdrInit (d s : Mbuf) (pktlen : BitVec 32) :
    Kept d (mbPkthdrInit d s pktlen) := ⟨rfl, rfl⟩

/-- An mbuf without spaces gives back the same when it is trimmed. -/
theorem kept_copy (fresh m : Mbuf) (nohead : fresh.headspace = 0)
    (notail : fresh.tailspace = 0) :
    Kept fresh
      (mbPkthdrInit (mbAdjTail (mbAdjHead fresh (-m.headspace)) (-m.tailspace))
        m m.mLen) := by
  have heads := m.headspace_range
  have tails := m.tailspace_range
  have headed := spread_mbAdjHead fresh (-m.headspace) (by
    unfold UINT16_MAX
    omega)
  have headedTail := mbAdjHead_tailspace fresh (-m.headspace)
  have tailed := spread_mbAdjTail (mbAdjHead fresh (-m.headspace))
    (-m.tailspace) (by
      unfold UINT16_MAX
      omega)
  refine ⟨rfl, ?_⟩
  rw [(kept_mbPkthdrInit _ m m.mLen).refund]
  exact refund_congr _ _ (tailed.trans headed)

/-! ### The books of a pool -/

structure Books (pool : MbufPool) : Prop where
  refunds : ∀ block ∈ pool.live, Refundable block
  sums : ∀ account : Account,
    (account.sum pool.limit).toInt = total account.weight pool.live

theorem weight_le_txrx (account : Account) (block : Block) :
    account.weight block ≤ Account.txrx.weight block := by
  unfold Account.weight
  by_cases carried : account.carries block.mbuf.mType = true
  · rw [if_pos carried, if_pos (carries_txrx account _ carried)]
  · rw [if_neg carried]
    exact Nat.zero_le _

theorem Books.total_le {pool : MbufPool} (books : Books pool)
    (account : Account) :
    (total account.weight pool.live : Int) ≤ 2147483647 := by
  have range := toInt_range_32 (account.sum pool.limit)
  rw [← books.sums account]
  exact range.2

theorem Books.put {pool : MbufPool} (books : Books pool) (place : Nat)
    (block : Block) (moved : Mbuf) (here : pool.live[place]? = some block)
    (kept : Kept block.mbuf moved) : Books (pool.put place block moved) := by
  have refundable := books.refunds block (List.mem_of_getElem? here)
  constructor
  · intro other member
    rcases List.mem_or_eq_of_mem_set member with old | new
    · exact books.refunds other old
    · rw [new]
      exact kept.refundable refundable
  · intro account
    have same : account.weight { block with mbuf := moved } =
        account.weight block := by
      unfold Account.weight
      rw [kept.type]
    refine (books.sums account).trans ?_
    change _ = ((total account.weight (pool.live.set place _) : Nat) : Int)
    rw [total_replaced _ _ _ _ _ here same]

theorem Books.free {pool : MbufPool} (books : Books pool) (place : Nat)
    (block : Block) (here : pool.live[place]? = some block) :
    Books (pool.free place block) := by
  constructor
  · intro other member
    exact books.refunds other (List.mem_of_mem_eraseIdx member)
  · intro account
    have taken := total_taken account.weight pool.live place block here
    have sum := books.sums account
    have refunded := books.refunds block (List.mem_of_getElem? here)
    change (account.sum (mbFree pool.limit block.mbuf)).toInt =
      (total account.weight (pool.live.eraseIdx place) : Int)
    unfold mbFree
    rw [sum_mbDischarge account _ _ _ (by
      rw [BitVec.and_assoc, BitVec.and_self]), carries_masked, refunded]
    unfold Account.weight at taken
    by_cases carried : account.carries block.mbuf.mType = true
    · rw [if_pos carried] at taken ⊢
      change total account.weight (pool.live.eraseIdx place) + block.size =
        total account.weight pool.live at taken
      rw [toInt_sub_ofNat_32 _ _ (by omega)]
      omega
    · rw [if_neg carried] at taken ⊢
      change total account.weight (pool.live.eraseIdx place) + 0 =
        total account.weight pool.live at taken
      omega

theorem Books.add {pool : MbufPool} (books : Books pool) (after : MbufLimit)
    (block : Block) (refundable : Refundable block)
    (sums : ∀ account : Account, account.sum after =
      if account.carries block.mbuf.mType then
        account.sum pool.limit + BitVec.ofNat 32 block.size
      else account.sum pool.limit)
    (small : Account.txrx.carries block.mbuf.mType = true →
      (total Account.txrx.weight pool.live + block.size : Nat) ≤ INT_MAX) :
    Books (pool.add (some block, after)) := by
  constructor
  · intro other member
    rcases List.mem_append.mp member with old | new
    · exact books.refunds other old
    · rw [List.mem_singleton.mp new]
      exact refundable
  · intro account
    have sum := books.sums account
    change (account.sum after).toInt =
      ((total account.weight (pool.live ++ [block]) : Nat) : Int)
    rw [total_concat, sums]
    unfold Account.weight
    by_cases carried : account.carries block.mbuf.mType = true
    · have below := total_le_of_imp account.weight Account.txrx.weight
        pool.live (weight_le_txrx account)
      have room := small (carries_txrx account _ carried)
      unfold INT_MAX at room
      rw [if_pos carried, if_pos carried]
      rw [toInt_add_ofNat_32 _ _ (by omega) (by omega), sum]
      push_cast
      rfl
    · rw [if_neg carried, if_neg carried]
      exact sum

theorem Books.refused {pool : MbufPool} (books : Books pool)
    (after : MbufLimit)
    (sums : ∀ account : Account, account.sum after = account.sum pool.limit) :
    Books (pool.add (none, after)) := by
  constructor
  · intro block member
    exact books.refunds block (by simpa [MbufPool.add] using member)
  · intro account
    change (account.sum after).toInt =
      ((total account.weight (pool.live ++ []) : Nat) : Int)
    rw [sums, List.append_nil]
    exact books.sums account

/-! ### Calls -/

/-- A get that is charged right, with what becomes of the mbuf it returns. -/
theorem books_got {pool : MbufPool} (books : Books pool) (len tx : BitVec 32)
    (malloc : Option Int) (finish : Mbuf → Mbuf)
    (finished : ∀ block, (mbGet pool.limit len tx malloc).1 = some block →
      Kept block.mbuf (finish block.mbuf))
    (charges : GetCharges pool len tx malloc) :
    Books (pool.add ((mbGet pool.limit len tx malloc).1.map fun block =>
      { block with mbuf := finish block.mbuf },
      (mbGet pool.limit len tx malloc).2)) := by
  rcases mbGet_cases pool.limit len tx malloc fun nonneg => (charges nonneg).1
    with ⟨none, sums⟩ | ⟨block, got, sums⟩
  · rw [none]
    exact books.refused _ sums
  · obtain ⟨nonneg, -⟩ := mbGet_some pool.limit
      (mbGet pool.limit len tx malloc).2 len tx malloc block (Prod.ext got rfl)
    have kept := finished block got
    rw [got]
    apply books.add
    · exact kept.refundable (refundable_mbGet pool.limit len tx malloc block got)
    · simp only [kept.type]
      exact sums
    · simp only [kept.type]
      exact (charges nonneg).2 block got

theorem books_mbDup {pool : MbufPool} (books : Books pool) (m : Mbuf)
    (malloc : Option Int) (nonneg : 0 ≤ m.len)
    (charges : GetCharges pool
      (BitVec.ofInt 32 (m.len + m.headspace + m.tailspace)) forRx malloc) :
    ∃ done, mbDup pool.limit m malloc = some done ∧ Books (pool.add done) := by
  have kept : ∀ block, (mbGet pool.limit
      (BitVec.ofInt 32 (m.len + m.headspace + m.tailspace)) forRx
      malloc).1 = some block → Kept block.mbuf
        (mbPkthdrInit
          (mbAdjTail (mbAdjHead block.mbuf (-m.headspace)) (-m.tailspace))
          m m.mLen) := by
    intro block got
    obtain ⟨-, place, -, made⟩ := mbGet_some _ _ _ _ malloc block
      (Prod.ext got rfl)
    apply kept_copy
    · rw [made]
      rfl
    · rw [made]
      rfl
  have copied := books_got books _ _ malloc (fun fresh => mbPkthdrInit
    (mbAdjTail (mbAdjHead fresh (-m.headspace)) (-m.tailspace)) m m.mLen)
    kept charges
  unfold mbDup
  cases got : mbGet pool.limit
      (BitVec.ofInt 32 (m.len + m.headspace + m.tailspace)) forRx malloc with
  | mk nm after =>
      rw [got] at copied
      cases nm with
      | none => exact ⟨_, rfl, copied⟩
      | some block =>
          simp only
          rw [if_neg (by omega)]
          exact ⟨_, rfl, copied⟩

theorem books_mbSplit {pool : MbufPool} (books : Books pool) (place : Nat)
    (block : Block) (here : pool.live[place]? = some block)
    (len0 : BitVec 32) (malloc : Option Int)
    (fits : SpacesFit pool block.mbuf (.split place len0 malloc)) :
    Books ((pool.put place block
      (mbSplit pool.limit block.mbuf len0 malloc).2.1).add
        ((mbSplit pool.limit block.mbuf len0 malloc).1,
          (mbSplit pool.limit block.mbuf len0 malloc).2.2)) := by
  have tails := block.mbuf.tailspace_range
  have lens := block.mbuf.len_range
  have range := toInt_range_32 len0
  have unchanged := books.put place block block.mbuf here (kept_refl _)
  unfold SpacesFit at fits
  unfold mbSplit
  by_cases first : len0.toInt ≤ 0
  · rw [if_pos first]
    exact unchanged.refused _ fun _ => rfl
  · rw [if_neg first]
    by_cases short : block.mbuf.len ≤ len0.toInt
    · rw [if_pos short]
      exact unchanged.refused _ fun _ => rfl
    · rw [if_neg short]
      obtain ⟨charges, room⟩ := fits (by omega) (by omega)
      have exactLen := toInt_ofInt_32 (block.mbuf.len - len0.toInt)
      -- the pool in which the tail of the source is cut off already
      have cut : ∀ m0, Kept block.mbuf m0 → Books
          ((pool.put place block m0).add
            ((mbGet pool.limit
              (BitVec.ofInt 32 (block.mbuf.len - len0.toInt)) forRx
              malloc).1.map fun m =>
                { m with
                  mbuf := mbPkthdrInit m.mbuf block.mbuf
                    (BitVec.ofInt 32 (block.mbuf.len - len0.toInt)) },
            (mbGet pool.limit
              (BitVec.ofInt 32 (block.mbuf.len - len0.toInt)) forRx
              malloc).2)) := by
        intro m0 kept
        have same : total Account.txrx.weight (pool.put place block m0).live =
            total Account.txrx.weight pool.live := by
          apply total_replaced _ _ _ _ _ here
          unfold Account.weight
          rw [kept.type]
        refine books_got (books.put place block m0 here kept) _ forRx malloc
          (fun fresh => mbPkthdrInit fresh block.mbuf
            (BitVec.ofInt 32 (block.mbuf.len - len0.toInt))) ?_ ?_
        · intro m _
          exact kept_mbPkthdrInit m.mbuf block.mbuf _
        · intro nonneg
          refine ⟨(charges nonneg).1, ?_⟩
          rw [same]
          exact (charges nonneg).2
      simp only
      cases got : mbGet pool.limit
          (BitVec.ofInt 32 (block.mbuf.len - len0.toInt)) forRx malloc with
      | mk m after =>
          rw [got] at cut room
          cases m with
          | none => exact cut block.mbuf (kept_refl _)
          | some block' =>
              apply cut
              refine ⟨rfl, refund_congr _ _ (spread_mbAdjTail _ _ ?_)⟩
              have tail := room rfl
              omega

theorem books_callOn {pool : MbufPool} (books : Books pool) (place : Nat)
    (block : Block) (call : MbufCall) (named : call.place = some place)
    (here : pool.live[place]? = some block)
    (fits : SpacesFit pool block.mbuf call) :
    ∃ after, pool.callOn place block call = some after ∧ Books after := by
  cases call with
  | setLimit tx rx txrx => cases named
  | get len tx malloc => cases named
  | dup place' malloc =>
      obtain ⟨done, copied, kept⟩ := books_mbDup books block.mbuf malloc fits.2
        fits.1
      refine ⟨pool.add done, ?_, kept⟩
      simp only [MbufPool.callOn, copied, Option.map_some]
  | split place' len0 malloc =>
      exact ⟨_, rfl, books_mbSplit books place block here len0 malloc fits⟩
  | adj place' reqLen =>
      exact ⟨_, rfl, books.put place block _ here
        (kept_mbAdj pool block.mbuf place' reqLen fits)⟩
  | append place' len cp =>
      obtain ⟨done, appended, kept⟩ := kept_mbAppend pool block.mbuf place' len
        cp fits
      refine ⟨pool.put place block done.2, ?_, books.put place block _ here
        kept⟩
      simp only [MbufPool.callOn, appended, Option.map_some]
  | reserve place' len headspace tailspace =>
      exact ⟨_, rfl, books.put place block _ here
        (kept_mbReserve pool block.mbuf place' len headspace tailspace fits)⟩
  | prepend place' plen =>
      simp only [MbufPool.callOn]
      cases prepended : mbPrepend block.mbuf plen with
      | none => exact ⟨_, rfl, books.free place block here⟩
      | some moved =>
          exact ⟨_, rfl, books.put place block moved here
            (kept_mbPrepend block.mbuf moved plen prepended)⟩
  | free place' => exact ⟨_, rfl, books.free place block here⟩

theorem books_call {pool : MbufPool} (books : Books pool) (call : MbufCall)
    (charges : Charges (some pool) call) :
    ∃ after, pool.call call = some after ∧ Books after := by
  cases named : call.place with
  | none =>
      cases call with
      | setLimit tx rx txrx =>
          refine ⟨_, rfl, books.refunds, ?_⟩
          intro account
          refine Eq.trans ?_ (books.sums account)
          cases account <;> rfl
      | get len tx malloc =>
          have got := books_got books len tx malloc id
            (fun block _ => kept_refl block.mbuf) charges
          refine ⟨_, rfl, ?_⟩
          have same : ((mbGet pool.limit len tx malloc).1.map fun block =>
              { block with mbuf := id block.mbuf },
              (mbGet pool.limit len tx malloc).2) =
              mbGet pool.limit len tx malloc :=
            Prod.ext (congrFun Option.map_id _) rfl
          rw [same] at got
          exact got
      | _ => cases named
  | some place =>
      cases here : pool.live[place]? with
      | none => exact ⟨pool, pool.call_unplaced call place named here, books⟩
      | some block =>
          rw [pool.call_placed call place block named here]
          apply books_callOn books place block call named here
          cases call with
          | setLimit tx rx txrx => cases named
          | get len tx malloc => cases named
          | _ => exact charges place named block here

/-! ### Runs -/

def Booked : Option MbufPool → Prop
  | some pool => Books pool
  | none => False

theorem booked_create : Booked (some MbufPool.create) := by
  constructor
  · intro block member
    cases member
  · intro account
    cases account <;> rfl

theorem booked_step (pool : Option MbufPool) (call : MbufCall)
    (booked : Booked pool) (charges : Charges pool call) :
    Booked (step pool call) := by
  cases pool with
  | none => exact absurd booked id
  | some pool =>
      obtain ⟨after, called, books⟩ := books_call booked call charges
      change Booked (pool.call call)
      rw [called]
      exact books

theorem booked_accounted (pool : Option MbufPool) (booked : Booked pool) :
    Accounted pool := by
  cases pool with
  | none => exact booked
  | some pool => exact booked.sums

/-- Nothing is in use when no mbuf is. -/
def EmptyUnused : Option MbufPool → Prop
  | some pool => pool.live = [] →
      ∀ account : Account, account.sum pool.limit = 0
  | none => False

theorem booked_unused (pool : Option MbufPool) (booked : Booked pool) :
    EmptyUnused pool := by
  cases pool with
  | none => exact booked
  | some pool =>
      intro empty account
      apply BitVec.eq_of_toInt_eq
      rw [booked.sums account, empty]
      rfl

/-- Along a run whose calls meet the condition the sums are what the live mbufs
were allocated, they are 0 when there are none, and a get that returns NULL
leaves them as they were. -/
theorem accounted_along (calls : List MbufCall)
    (along : Along step Charges (some MbufPool.create) calls) :
    Always step Accounted (some MbufPool.create) calls ∧
    Always step EmptyUnused (some MbufPool.create) calls ∧
    ∀ seen len tx malloc, seen ++ [MbufCall.get len tx malloc] <+: calls →
      ∀ pool, run step (some MbufPool.create) seen = some pool →
        (mbGet pool.limit len tx malloc).1 = none →
          ∀ account : Account,
            account.sum (mbGet pool.limit len tx malloc).2 =
              account.sum pool.limit := by
  have booked := always_of_along Booked Charges booked_step
    (some MbufPool.create) booked_create calls along
  refine ⟨always_imp _ _ booked_accounted _ _ booked,
    always_imp _ _ booked_unused _ _ booked, ?_⟩
  rintro seen len tx malloc ⟨rest, split⟩ pool reached failed account
  rw [← split, along_append, along_append, reached] at along
  rcases mbGet_cases pool.limit len tx malloc
    fun nonneg => (along.1.2.1 nonneg).1 with ⟨-, sums⟩ | ⟨block, got, -⟩
  · exact sums account
  · rw [failed] at got
    cases got

/-- An mbuf is got, trimmed at both ends and freed. -/
theorem trimmed_accounted :
    Along step Charges (some MbufPool.create)
      [.get 100 0x21 (some 0), .adj 0 10, .adj 0 (-20), .free 0] ∧
    Accounted (run step (some MbufPool.create)
      [.get 100 0x21 (some 0), .adj 0 10, .adj 0 (-20), .free 0]) := by
  have along : Along step Charges (some MbufPool.create)
      [.get 100 0x21 (some 0), .adj 0 10, .adj 0 (-20), .free 0] := by decide
  exact ⟨along, (accounted_along _ along).1 _ List.prefix_rfl⟩

/-- A get with both flags is refused by the limit of RX when the sum of TX is
charged already. -/
theorem refusedGet_charged :
    ¬ Accounted (run step (some MbufPool.create)
      [.setLimit 0 100 0, .get 100 0x30 (some 0)]) := by
  intro accounted
  have sum := accounted .tx
  revert sum
  decide

end XR872.Mbufs
