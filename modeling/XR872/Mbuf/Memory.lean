/-
Where mbufs come from, and what they are charged.

An mbuf that is got with a limit flag is charged its whole size; what it is
refunded when it is freed is worked out from its lengths at that time.
-/

import XR872.Mbuf.Mbuf

namespace XR872.Mbufs

open MachineInts

def MBUF_GET_FLAG_MASK : BitVec 32 := 0xf0

def MBUF_GET_FLAG_LIMIT_TX : BitVec 8 := 0x10

def MBUF_GET_FLAG_LIMIT_RX : BitVec 8 := 0x20

/-- The limits, 0 for none, and what is in use. -/
structure MbufLimit where
  mbufTxMemMax : BitVec 32
  mbufRxMemMax : BitVec 32
  mbufTxrxMemMax : BitVec 32
  mTxMemSum : BitVec 32
  mRxMemSum : BitVec 32
  mTxrxMemSum : BitVec 32
deriving DecidableEq, Repr

def limitsTx (flag : BitVec 8) : Bool := flag &&& MBUF_GET_FLAG_LIMIT_TX ≠ 0

def limitsRx (flag : BitVec 8) : Bool := flag &&& MBUF_GET_FLAG_LIMIT_RX ≠ 0

def exceeds (max sum : BitVec 32) : Bool := 0 < max.toNat ∧ max.toNat < sum.toNat

def mbLimitMemInc (limit : MbufLimit) (flag : BitVec 8) (len : BitVec 32) :
    Int × MbufLimit :=
  if exceeds limit.mbufTxrxMemMax (limit.mTxrxMemSum + len) then (-1, limit)
  else if limitsTx flag ∧ exceeds limit.mbufTxMemMax (limit.mTxMemSum + len)
    then (-1, limit)
  else
    -- the sum of TX is updated before the limit of RX is looked at
    let limit := if limitsTx flag then
        { limit with mTxMemSum := limit.mTxMemSum + len }
      else limit
    if limitsRx flag ∧ exceeds limit.mbufRxMemMax (limit.mRxMemSum + len)
      then (-1, limit)
    else
      let limit := if limitsRx flag then
          { limit with mRxMemSum := limit.mRxMemSum + len }
        else limit
      (0, { limit with mTxrxMemSum := limit.mTxrxMemSum + len })

def mbLimitMemDec (limit : MbufLimit) (flag : BitVec 8) (len : BitVec 32) :
    MbufLimit :=
  let limit := { limit with mTxrxMemSum := limit.mTxrxMemSum - len }
  let limit := if limitsTx flag then
      { limit with mTxMemSum := limit.mTxMemSum - len }
    else limit
  if limitsRx flag then { limit with mRxMemSum := limit.mRxMemSum - len }
  else limit

/-- What `mb_get` does with a flag, and what it and `mb_free` undo. -/
def mbCharge (limit : MbufLimit) (flag : BitVec 8) (len : BitVec 32) :
    Int × MbufLimit :=
  if flag ≠ 0 then mbLimitMemInc limit flag len else (0, limit)

def mbDischarge (limit : MbufLimit) (flag : BitVec 8) (len : BitVec 32) :
    MbufLimit :=
  if flag ≠ 0 then mbLimitMemDec limit flag len else limit

def mbMemSetLimit (limit : MbufLimit) (tx rx txrx : BitVec 32) : MbufLimit :=
  { limit with
    mbufTxMemMax := tx
    mbufRxMemMax := rx
    mbufTxrxMemMax := txrx }

/-! ### Getting and freeing -/

/-- An mbuf that is in use, and how many bytes were allocated for it. -/
structure Block where
  size : Nat
  mbuf : Mbuf
deriving DecidableEq, Repr

/-- The bytes allocated for the data area. -/
def Block.capacity (block : Block) : Int := block.size - MBUF_SIZE

/-- `tot_len` of `mb_get`. -/
def totLen (len : BitVec 32) (tx : Bool) : BitVec 32 :=
  let totLen := BitVec.ofInt 32 (MBUF_SIZE + len.toInt)
  if tx then totLen + BitVec.ofInt 32 (MBUF_HEAD_SPACE + MBUF_TAIL_SPACE)
  else totLen

/-- The mbuf that `mb_get` makes of the memory at `place`. -/
def mbufAt (place : Int) (len : BitVec 32) (tx : Bool) (flag : BitVec 8) :
    Mbuf :=
  let mBuf := place + MBUF_SIZE
  { mBuf
    mData := if tx then mBuf + MBUF_HEAD_SPACE else mBuf
    mLen := len
    mHeadspace := if tx then BitVec.ofInt 16 MBUF_HEAD_SPACE else 0
    mTailspace := if tx then BitVec.ofInt 16 MBUF_TAIL_SPACE else 0
    mType := flag
    mFlags := M_PKTHDR
    mPkthdrLen := len }

/-- `mb_get`; `malloc` is the answer of the allocator. -/
def mbGet (limit : MbufLimit) (len tx : BitVec 32) (malloc : Option Int) :
    Option Block × MbufLimit :=
  if len.toInt < 0 then (none, limit)
  else
    let flag := (tx &&& MBUF_GET_FLAG_MASK).setWidth 8
    let isTx : Bool := tx &&& 1 ≠ 0
    let totLen := totLen len isTx
    let charged := mbCharge limit flag totLen
    if charged.1 ≠ 0 then (none, charged.2)
    else
      match malloc with
      | some place =>
          (some { size := totLen.toNat, mbuf := mbufAt place len isTx flag },
            charged.2)
      | none => (none, mbDischarge charged.2 flag totLen)

/-- What `mb_free` takes from the sums. -/
def refund (m : Mbuf) : BitVec 32 :=
  BitVec.ofInt 32 (MBUF_SIZE + m.len + m.headspace + m.tailspace)

def mbFree (limit : MbufLimit) (m : Mbuf) : MbufLimit :=
  mbDischarge limit (m.mType &&& MBUF_GET_FLAG_MASK.setWidth 8) (refund m)

/-- `0 | MBUF_GET_FLAG_LIMIT_RX`. -/
def forRx : BitVec 32 := MBUF_GET_FLAG_LIMIT_RX.setWidth 32

def mbDup (limit : MbufLimit) (m : Mbuf) (malloc : Option Int) :
    Option (Option Block × MbufLimit) :=
  match mbGet limit (BitVec.ofInt 32 (m.len + m.headspace + m.tailspace)) forRx
      malloc with
  | (none, limit) => some (none, limit)
  | (some nm, limit) =>
      if m.len < 0 then none
      else
        let copy := mbAdjTail (mbAdjHead nm.mbuf (-m.headspace)) (-m.tailspace)
        some (some { nm with mbuf := mbPkthdrInit copy m m.mLen }, limit)

/-- `mb_split`: the new mbuf, and what `m0` has become. -/
def mbSplit (limit : MbufLimit) (m0 : Mbuf) (len0 : BitVec 32)
    (malloc : Option Int) : Option Block × Mbuf × MbufLimit :=
  if len0.toInt ≤ 0 then (none, m0, limit)
  else if m0.len ≤ len0.toInt then (none, m0, limit)
  else
    let len := BitVec.ofInt 32 (m0.len - len0.toInt)
    match mbGet limit len forRx malloc with
    | (none, limit) => (none, m0, limit)
    | (some m, limit) =>
        (some { m with mbuf := mbPkthdrInit m.mbuf m0 len },
          mbAdjTail m0 (-len.toInt), limit)

/-! ### The mbufs of a program -/

structure MbufPool where
  limit : MbufLimit
  /-- The mbufs that were got and not freed. -/
  live : List Block
deriving DecidableEq, Repr

/-- A call; mbufs are named by their places among the live ones. -/
inductive MbufCall where
  | setLimit (tx rx txrx : BitVec 32)
  | get (len tx : BitVec 32) (malloc : Option Int)
  | dup (place : Nat) (malloc : Option Int)
  | split (place : Nat) (len0 : BitVec 32) (malloc : Option Int)
  | adj (place : Nat) (reqLen : BitVec 32)
  | append (place : Nat) (len : BitVec 32) (cp : Bool)
  | reserve (place : Nat) (len : BitVec 32) (headspace tailspace : BitVec 16)
  | prepend (place : Nat) (plen : BitVec 32)
  | free (place : Nat)
deriving DecidableEq, Repr

namespace MbufPool

/-- The limits of the source, and no mbuf. -/
def create : MbufPool :=
  { limit :=
      { mbufTxMemMax := 20 * 1024, mbufRxMemMax := 20 * 1024
        mbufTxrxMemMax := 32 * 1024
        mTxMemSum := 0, mRxMemSum := 0, mTxrxMemSum := 0 }
    live := [] }

def add (pool : MbufPool) (got : Option Block × MbufLimit) : MbufPool :=
  { limit := got.2, live := pool.live ++ got.1.toList }

def put (pool : MbufPool) (place : Nat) (block : Block) (mbuf : Mbuf) :
    MbufPool :=
  { pool with live := pool.live.set place { block with mbuf } }

def free (pool : MbufPool) (place : Nat) (block : Block) : MbufPool :=
  { limit := mbFree pool.limit block.mbuf, live := pool.live.eraseIdx place }

def callOn (pool : MbufPool) (place : Nat) (block : Block) :
    MbufCall → Option MbufPool
  | .dup _ malloc => (mbDup pool.limit block.mbuf malloc).map pool.add
  | .split _ len0 malloc =>
      let (m, m0, limit) := mbSplit pool.limit block.mbuf len0 malloc
      some ((pool.put place block m0).add (m, limit))
  | .adj _ reqLen => some (pool.put place block (mbAdj block.mbuf reqLen).2)
  | .append _ len cp => (mbAppend block.mbuf len cp).map fun done =>
      pool.put place block done.2
  | .reserve _ len headspace tailspace =>
      some (pool.put place block
        (mbReserve block.mbuf len headspace tailspace).2)
  | .prepend _ plen =>
      match mbPrepend block.mbuf plen with
      | some mbuf => some (pool.put place block mbuf)
      | none => some (pool.free place block)
  | .free _ => some (pool.free place block)
  | _ => some pool

end MbufPool

/-- The mbuf that a call is about. -/
def MbufCall.place : MbufCall → Option Nat
  | .setLimit .. | .get .. => none
  | .dup place _ | .split place _ _ | .adj place _ | .append place _ _
  | .reserve place _ _ _ | .prepend place _ | .free place => some place

/-- One call; a place where there is no mbuf is a NULL pointer, and nothing is
done with it. -/
def MbufPool.call (pool : MbufPool) (call : MbufCall) : Option MbufPool :=
  match call with
  | .setLimit tx rx txrx =>
      some { pool with limit := mbMemSetLimit pool.limit tx rx txrx }
  | .get len tx malloc => some (pool.add (mbGet pool.limit len tx malloc))
  | .dup place _ | .split place _ _ | .adj place _ | .append place _ _
  | .reserve place _ _ _ | .prepend place _ | .free place =>
      match pool.live[place]? with
      | some block => pool.callOn place block call
      | none => some pool

theorem MbufPool.call_placed (pool : MbufPool) (call : MbufCall) (place : Nat)
    (block : Block) (named : call.place = some place)
    (here : pool.live[place]? = some block) :
    pool.call call = pool.callOn place block call := by
  cases call <;> cases named <;> simp only [MbufPool.call, here]

theorem MbufPool.call_unplaced (pool : MbufPool) (call : MbufCall) (place : Nat)
    (named : call.place = some place) (here : pool.live[place]? = none) :
    pool.call call = some pool := by
  cases call <;> cases named <;> simp only [MbufPool.call, here]

/-- Calls one after the other; nothing comes after a copy over all of memory. -/
def step (pool : Option MbufPool) (call : MbufCall) : Option MbufPool :=
  pool.bind fun pool => pool.call call

end XR872.Mbufs
