/-
One mbuf and the operations that move its data.

Lengths are computed as `int` and cut to the width of the field that takes
them. The bytes of the data area are not followed; a copy whose length is
negative runs over all of memory and has no next state.
-/

import XR872.Library.MachineInt

namespace XR872.Mbufs

open MachineInts

structure Mbuf where
  mBuf : Int
  mData : Int
  mLen : BitVec 32
  mHeadspace : BitVec 16
  mTailspace : BitVec 16
  mType : BitVec 8
  mFlags : BitVec 24
  mPkthdrLen : BitVec 32
deriving DecidableEq, Repr

def MBUF_SIZE : Int := 48

def MBUF_HEAD_SPACE : Int := 68

def MBUF_TAIL_SPACE : Int := 16

def M_PKTHDR : BitVec 24 := 0x2

def M_COPYFLAGS : BitVec 24 := 0xfff0fe

namespace Mbuf

variable (m : Mbuf)

def len : Int := m.mLen.toInt

def headspace : Int := m.mHeadspace.toNat

def tailspace : Int := m.mTailspace.toNat

def pkthdrLen : Int := m.mPkthdrLen.toInt

end Mbuf

/-! ### The operations -/

/-- Add space at the head of mbuf, no sanity checks. -/
def mbAdjHead (m : Mbuf) (increment : Int) : Mbuf :=
  { m with
    mHeadspace := BitVec.ofInt 16 (m.headspace - increment)
    mData := m.mData - increment
    mLen := BitVec.ofInt 32 (m.len + increment)
    mPkthdrLen := BitVec.ofInt 32 (m.pkthdrLen + increment) }

/-- Add space at the tail of mbuf, no sanity checks. -/
def mbAdjTail (m : Mbuf) (increment : Int) : Mbuf :=
  { m with
    mTailspace := BitVec.ofInt 16 (m.tailspace - increment)
    mLen := BitVec.ofInt 32 (m.len + increment)
    mPkthdrLen := BitVec.ofInt 32 (m.pkthdrLen + increment) }

/-- Copy some members of mbuf from `s` to `d`. -/
def mbPkthdrInit (d s : Mbuf) (pktlen : BitVec 32) : Mbuf :=
  { d with
    mFlags := s.mFlags &&& M_COPYFLAGS ||| M_PKTHDR
    mPkthdrLen := pktlen }

/-- Trim data from head or tail. -/
def mbAdj (m : Mbuf) (reqLen : BitVec 32) : Int × Mbuf :=
  if 0 ≤ reqLen.toInt then
    if m.len < reqLen.toInt then (-1, m)
    else (0, mbAdjHead m (-reqLen).toInt)
  else
    -- the most negative length is its own negation
    let reqLen := -reqLen
    if m.len < reqLen.toInt then (-1, m)
    else (0, mbAdjTail m (-reqLen).toInt)

/-- Append data to the tail space; `cp` tells whether there are data to copy. -/
def mbAppend (m : Mbuf) (len : BitVec 32) (cp : Bool) : Option (Int × Mbuf) :=
  if m.tailspace < len.toInt then some (0, m)
  else if cp = true ∧ len.toInt < 0 then none
  else some (1, mbAdjTail m len.toInt)

/-- `buf_len` of `mb_reserve`. -/
def bufLen (m : Mbuf) : BitVec 32 :=
  BitVec.ofInt 32 (m.headspace + m.len + m.tailspace)

/-- The check of `mb_reserve`; its sum is an `int` too. -/
def hasRoom (m : Mbuf) (len : BitVec 32) (headspace tailspace : BitVec 16) :
    Bool :=
  (BitVec.ofInt 32 (headspace.toNat + len.toInt + tailspace.toNat)).toInt ≤
    (bufLen m).toInt

/-- Adjust the mbuf to reserve space directly. -/
def mbReserve (m : Mbuf) (len : BitVec 32) (headspace tailspace : BitVec 16) :
    Int × Mbuf :=
  let bufEnd := m.mData + m.len + m.tailspace
  if hasRoom m len headspace tailspace then
    (0, { m with
      mTailspace := tailspace
      mLen := len
      mPkthdrLen := len
      mData := bufEnd - tailspace.toNat - len.toInt
      mHeadspace := BitVec.ofInt 16
        ((bufLen m).toInt - tailspace.toNat - len.toInt) })
  else (-1, m)

/-- `MB_PREPEND`; nothing is left of an mbuf that has no room: it is freed. -/
def mbPrepend (m : Mbuf) (plen : BitVec 32) : Option Mbuf :=
  if 0 ≤ plen.toInt ∧ plen.toInt ≤ m.headspace then
    some { m with
      mHeadspace := BitVec.ofInt 16 (m.headspace - plen.toInt)
      mData := m.mData - plen.toInt
      mLen := BitVec.ofInt 32 (m.len + plen.toInt)
      mPkthdrLen := BitVec.ofInt 32 (m.pkthdrLen + plen.toInt) }
  else none

end XR872.Mbufs
