/-
How the lengths of an mbuf fit its data area.

Each operation keeps the layout exactly if the lengths it asks for fit the
fields that take them.
-/

import XR872.Library.Run
import XR872.Mbuf.Memory

namespace XR872.Mbufs

open MachineInts
open Runs

/-- The layout of an mbuf within the data area that was allocated for it. -/
structure Geometry (capacity : Int) (m : Mbuf) : Prop where
  data : m.mData = m.mBuf + m.headspace
  nonneg : 0 ≤ m.len
  total : m.headspace + m.len + m.tailspace = capacity
  pkthdr : m.pkthdrLen = m.len

def Geometrical : Option MbufPool → Prop
  | some pool => ∀ block ∈ pool.live, Geometry block.capacity block.mbuf
  | none => False

def INT_MAX : Int := 2147483647

def UINT16_MAX : Int := 65535

/-- The lengths that the call asks of an mbuf fit their fields. -/
def Fits (limit : MbufLimit) (m : Mbuf) : MbufCall → Prop
  | .adj _ reqLen =>
      (0 ≤ reqLen.toInt → reqLen.toInt ≤ m.len →
        m.headspace + reqLen.toInt ≤ UINT16_MAX) ∧
      (reqLen.toInt < 0 → reqLen.toInt ≠ -INT_MAX - 1 ∧
        (-reqLen.toInt ≤ m.len → m.tailspace - reqLen.toInt ≤ UINT16_MAX))
  | .append _ len cp =>
      len.toInt ≤ m.tailspace → (len.toInt < 0 → cp = false) ∧
        0 ≤ m.len + len.toInt ∧ m.len + len.toInt ≤ INT_MAX ∧
        m.tailspace - len.toInt ≤ UINT16_MAX
  | .reserve _ len headspace tailspace =>
      hasRoom m len headspace tailspace = true → 0 ≤ len.toInt ∧
        tailspace.toNat + len.toInt ≤
          m.headspace + m.len + m.tailspace ∧
        m.headspace + m.len + m.tailspace - tailspace.toNat - len.toInt ≤
          UINT16_MAX
  | .prepend _ plen =>
      0 ≤ plen.toInt → plen.toInt ≤ m.headspace →
        m.len + plen.toInt ≤ INT_MAX
  | .split _ len0 malloc =>
      0 < len0.toInt → len0.toInt < m.len →
        (mbGet limit (BitVec.ofInt 32 (m.len - len0.toInt)) forRx
          malloc).1.isSome = true →
        m.tailspace + (m.len - len0.toInt) ≤ UINT16_MAX
  | _ => True

/-- The call finds no mbuf, or what it asks of it fits. -/
def CallFits : Option MbufPool → MbufCall → Prop
  | some pool, call => ∀ place ∈ call.place, ∀ block ∈ pool.live[place]?,
      Fits pool.limit block.mbuf call
  | none, _ => True

/-! ### The ranges of the fields -/

namespace Mbuf

variable (m : Mbuf)

theorem len_range : -2147483648 ≤ m.len ∧ m.len ≤ 2147483647 :=
  toInt_range_32 m.mLen

theorem headspace_range : 0 ≤ m.headspace ∧ m.headspace ≤ 65535 := by
  have bound := m.mHeadspace.isLt
  unfold headspace
  omega

theorem tailspace_range : 0 ≤ m.tailspace ∧ m.tailspace ≤ 65535 := by
  have bound := m.mTailspace.isLt
  unfold tailspace
  omega

end Mbuf

/-! ### Moving the ends of the data -/

section Moves

variable (m : Mbuf) (increment : Int)

@[simp] theorem mbAdjHead_headspace :
    (mbAdjHead m increment).headspace = (m.headspace - increment) % 65536 :=
  toNat_ofInt_16 _

@[simp] theorem mbAdjHead_len : (mbAdjHead m increment).len =
    (m.len + increment + 2147483648) % 4294967296 - 2147483648 :=
  toInt_ofInt_32 _

@[simp] theorem mbAdjHead_tailspace :
    (mbAdjHead m increment).tailspace = m.tailspace := rfl

@[simp] theorem mbAdjHead_pkthdrLen : (mbAdjHead m increment).pkthdrLen =
    (m.pkthdrLen + increment + 2147483648) % 4294967296 - 2147483648 :=
  toInt_ofInt_32 _

@[simp] theorem mbAdjTail_headspace :
    (mbAdjTail m increment).headspace = m.headspace := rfl

@[simp] theorem mbAdjTail_len : (mbAdjTail m increment).len =
    (m.len + increment + 2147483648) % 4294967296 - 2147483648 :=
  toInt_ofInt_32 _

@[simp] theorem mbAdjTail_tailspace :
    (mbAdjTail m increment).tailspace = (m.tailspace - increment) % 65536 :=
  toNat_ofInt_16 _

@[simp] theorem mbAdjTail_pkthdrLen : (mbAdjTail m increment).pkthdrLen =
    (m.pkthdrLen + increment + 2147483648) % 4294967296 - 2147483648 :=
  toInt_ofInt_32 _

end Moves

section Layout

variable {capacity : Int} {m : Mbuf}

theorem geometry_mbAdjHead_iff (geometry : Geometry capacity m)
    (increment : Int) :
    Geometry capacity (mbAdjHead m increment) ↔
      0 ≤ m.headspace - increment ∧ m.headspace - increment ≤ UINT16_MAX ∧
        0 ≤ m.len + increment ∧ m.len + increment ≤ INT_MAX := by
  obtain ⟨data, nonneg, total, pkthdr⟩ := geometry
  have lens := m.len_range
  unfold INT_MAX UINT16_MAX
  constructor
  · rintro ⟨data', nonneg', total', -⟩
    change m.mData - increment = m.mBuf + _ at data'
    rw [mbAdjHead_headspace] at data'
    rw [mbAdjHead_len] at nonneg'
    rw [mbAdjHead_headspace, mbAdjHead_len, mbAdjHead_tailspace] at total'
    omega
  · rintro ⟨low, high, positive, small⟩
    refine ⟨?_, ?_, ?_, ?_⟩
    · change m.mData - increment = m.mBuf + _
      rw [mbAdjHead_headspace]
      omega
    · rw [mbAdjHead_len]
      omega
    · rw [mbAdjHead_headspace, mbAdjHead_len, mbAdjHead_tailspace]
      omega
    · rw [mbAdjHead_pkthdrLen, mbAdjHead_len, pkthdr]

theorem geometry_mbAdjTail_iff (geometry : Geometry capacity m)
    (increment : Int) (int : -INT_MAX - 1 ≤ increment ∧ increment ≤ INT_MAX) :
    Geometry capacity (mbAdjTail m increment) ↔
      0 ≤ m.tailspace - increment ∧ m.tailspace - increment ≤ UINT16_MAX ∧
        0 ≤ m.len + increment ∧ m.len + increment ≤ INT_MAX := by
  obtain ⟨data, nonneg, total, pkthdr⟩ := geometry
  have lens := m.len_range
  have tails := m.tailspace_range
  unfold INT_MAX at int
  unfold INT_MAX UINT16_MAX
  constructor
  · rintro ⟨-, nonneg', total', -⟩
    rw [mbAdjTail_len] at nonneg'
    rw [mbAdjTail_headspace, mbAdjTail_len, mbAdjTail_tailspace] at total'
    omega
  · rintro ⟨low, high, positive, small⟩
    refine ⟨data, ?_, ?_, ?_⟩
    · rw [mbAdjTail_len]
      omega
    · rw [mbAdjTail_headspace, mbAdjTail_len, mbAdjTail_tailspace]
      omega
    · rw [mbAdjTail_pkthdrLen, mbAdjTail_len, pkthdr]

theorem geometry_mbAdj_iff (geometry : Geometry capacity m)
    (limit : MbufLimit) (place : Nat) (reqLen : BitVec 32) :
    Geometry capacity (mbAdj m reqLen).2 ↔
      Fits limit m (.adj place reqLen) := by
  have range := toInt_range_32 reqLen
  have lens := m.len_range
  have heads := m.headspace_range
  have tails := m.tailspace_range
  have nonneg := geometry.nonneg
  have negated := toInt_neg_32 reqLen
  unfold mbAdj Fits
  by_cases front : 0 ≤ reqLen.toInt
  · rw [if_pos front]
    rw [if_neg (by omega)] at negated
    by_cases short : m.len < reqLen.toInt
    · rw [if_pos short]
      exact iff_of_true geometry ⟨by omega, by omega⟩
    · rw [if_neg short, negated]
      refine (geometry_mbAdjHead_iff geometry _).trans ?_
      unfold INT_MAX UINT16_MAX
      omega
  · rw [if_neg front]
    by_cases lowest : reqLen.toInt = -2147483648
    · -- the length is still negative behind the negation
      rw [if_pos lowest] at negated
      have again : (- -reqLen).toInt = -2147483648 := by
        rw [BitVec.neg_neg, lowest]
      simp only [negated, again]
      rw [if_neg (by omega)]
      refine (geometry_mbAdjTail_iff geometry _ ?_).trans ?_
      · unfold INT_MAX
        omega
      · unfold INT_MAX UINT16_MAX
        omega
    · rw [if_neg lowest] at negated
      simp only [negated, BitVec.neg_neg]
      by_cases short : m.len < -reqLen.toInt
      · rw [if_pos short]
        refine iff_of_true geometry ⟨by omega, fun _ => ⟨?_, by omega⟩⟩
        unfold INT_MAX
        omega
      · rw [if_neg short]
        refine (geometry_mbAdjTail_iff geometry _ ?_).trans ?_
        · unfold INT_MAX
          omega
        · unfold INT_MAX UINT16_MAX
          omega

theorem geometry_mbAppend_iff (geometry : Geometry capacity m)
    (limit : MbufLimit) (place : Nat) (len : BitVec 32) (cp : Bool) :
    (∃ done, mbAppend m len cp = some done ∧ Geometry capacity done.2) ↔
      Fits limit m (.append place len cp) := by
  have range := toInt_range_32 len
  have nonneg := geometry.nonneg
  unfold mbAppend Fits
  by_cases long : m.tailspace < len.toInt
  · rw [if_pos long]
    exact iff_of_true ⟨_, rfl, geometry⟩ (fun fits => by omega)
  · rw [if_neg long]
    by_cases wild : cp = true ∧ len.toInt < 0
    · rw [if_pos wild]
      refine iff_of_false (fun ⟨_, impossible, _⟩ => nomatch impossible) ?_
      intro fits
      have none := (fits (by omega)).1 wild.2
      rw [wild.1] at none
      cases none
    · rw [if_neg wild]
      have moved := geometry_mbAdjTail_iff geometry len.toInt (by
        unfold INT_MAX
        omega)
      constructor
      · rintro ⟨_, ⟨⟩, kept⟩ _
        obtain ⟨_, high, low, small⟩ := moved.mp kept
        exact ⟨fun negative => by simpa [negative] using wild, low, small, high⟩
      · intro fits
        obtain ⟨_, low, small, high⟩ := fits (by omega)
        exact ⟨_, rfl, moved.mpr ⟨by omega, high, low, small⟩⟩

theorem geometry_mbReserve_iff (geometry : Geometry capacity m)
    (limit : MbufLimit) (place : Nat) (len : BitVec 32)
    (headspace tailspace : BitVec 16) :
    Geometry capacity (mbReserve m len headspace tailspace).2 ↔
      Fits limit m (.reserve place len headspace tailspace) := by
  obtain ⟨data, nonneg, total, pkthdr⟩ := geometry
  unfold mbReserve Fits
  by_cases room : hasRoom m len headspace tailspace = true
  · have range := toInt_range_32 len
    have buf : (bufLen m).toInt =
        (m.headspace + m.len + m.tailspace + 2147483648) % 4294967296 -
          2147483648 := toInt_ofInt_32 _
    have head := toNat_ofInt_16
      ((bufLen m).toInt - tailspace.toNat - len.toInt)
    have tails := tailspace.isLt
    unfold UINT16_MAX
    rw [if_pos room]
    constructor
    · rintro ⟨data', nonneg', total', -⟩ _
      change m.mData + m.len + m.tailspace - tailspace.toNat - len.toInt =
        m.mBuf + ((BitVec.ofInt 16 _).toNat : Int) at data'
      change 0 ≤ len.toInt at nonneg'
      rw [head] at data'
      omega
    · intro fits
      obtain ⟨positive, high, low⟩ := fits room
      refine ⟨?_, positive, ?_, rfl⟩
      · change m.mData + m.len + m.tailspace - tailspace.toNat - len.toInt =
          m.mBuf + ((BitVec.ofInt 16 _).toNat : Int)
        rw [head]
        omega
      · change ((BitVec.ofInt 16 _).toNat : Int) + len.toInt +
          (tailspace.toNat : Int) = capacity
        rw [head]
        omega
  · rw [if_neg room]
    exact iff_of_true ⟨data, nonneg, total, pkthdr⟩
      (fun granted => absurd granted room)

theorem mbPrepend_eq (plen : BitVec 32) :
    mbPrepend m plen = if 0 ≤ plen.toInt ∧ plen.toInt ≤ m.headspace then
      some (mbAdjHead m plen.toInt) else none := rfl

theorem geometry_mbPrepend_iff (geometry : Geometry capacity m)
    (limit : MbufLimit) (place : Nat) (plen : BitVec 32) :
    (∀ prepended ∈ mbPrepend m plen, Geometry capacity prepended) ↔
      Fits limit m (.prepend place plen) := by
  have nonneg := geometry.nonneg
  have heads := m.headspace_range
  rw [mbPrepend_eq]
  unfold Fits
  by_cases room : 0 ≤ plen.toInt ∧ plen.toInt ≤ m.headspace
  · rw [if_pos room]
    simp only [Option.mem_some_iff, forall_eq']
    refine (geometry_mbAdjHead_iff geometry _).trans ?_
    unfold INT_MAX UINT16_MAX
    omega
  · rw [if_neg room]
    exact iff_of_true (fun _ impossible => nomatch impossible) (by omega)

end Layout
/-! ### New mbufs -/

/-- What `mb_get` has done when it returns an mbuf. -/
theorem mbGet_some (limit after : MbufLimit) (len tx : BitVec 32)
    (malloc : Option Int) (block : Block)
    (got : mbGet limit len tx malloc = (some block, after)) :
    0 ≤ len.toInt ∧ ∃ place, malloc = some place ∧ block =
      { size := (totLen len (tx &&& 1 ≠ 0)).toNat
        mbuf := mbufAt place len (tx &&& 1 ≠ 0)
          ((tx &&& MBUF_GET_FLAG_MASK).setWidth 8) } := by
  unfold mbGet at got
  by_cases negative : len.toInt < 0
  · rw [if_pos negative] at got
    cases got
  · rw [if_neg negative] at got
    by_cases refused : (mbCharge limit ((tx &&& MBUF_GET_FLAG_MASK).setWidth 8)
        (totLen len (tx &&& 1 ≠ 0))).1 ≠ 0
    · rw [if_pos refused] at got
      cases got
    · rw [if_neg refused] at got
      cases malloc with
      | none => cases got
      | some place =>
          cases got
          exact ⟨by omega, place, rfl, rfl⟩

theorem totLen_toNat (len : BitVec 32) (tx : Bool) (nonneg : 0 ≤ len.toInt) :
    ((totLen len tx).toNat : Int) = MBUF_SIZE + len.toInt +
      if tx then MBUF_HEAD_SPACE + MBUF_TAIL_SPACE else 0 := by
  have range := toInt_range_32 len
  have first := toNat_ofInt 32 (MBUF_SIZE + len.toInt)
  have second := toNat_ofInt 32 (MBUF_HEAD_SPACE + MBUF_TAIL_SPACE)
  unfold totLen
  unfold MBUF_SIZE MBUF_HEAD_SPACE MBUF_TAIL_SPACE at *
  cases tx with
  | true =>
      simp only [if_true, BitVec.toNat_add]
      omega
  | false =>
      simp only [Bool.false_eq_true, if_false]
      omega

theorem geometry_mbufAt (place : Int) (len : BitVec 32) (tx : Bool)
    (flag : BitVec 8) (nonneg : 0 ≤ len.toInt) :
    Geometry ((totLen len tx).toNat - MBUF_SIZE)
      (mbufAt place len tx flag) := by
  rw [totLen_toNat len tx nonneg]
  cases tx with
  | true =>
      refine ⟨rfl, nonneg, ?_, rfl⟩
      change (68 : Int) + len.toInt + 16 = 48 + len.toInt + (68 + 16) - 48
      omega
  | false =>
      refine ⟨(add_zero _).symm, nonneg, ?_, rfl⟩
      change (0 : Int) + len.toInt + 0 = 48 + len.toInt + 0 - 48
      omega

theorem geometry_mbGet (limit after : MbufLimit) (len tx : BitVec 32)
    (malloc : Option Int) (block : Block)
    (got : mbGet limit len tx malloc = (some block, after)) :
    Geometry block.capacity block.mbuf := by
  obtain ⟨nonneg, place, -, made⟩ := mbGet_some limit after len tx malloc block
    got
  rw [made]
  exact geometry_mbufAt place len _ _ nonneg

theorem geometry_mbPkthdrInit {capacity : Int} {d : Mbuf}
    (geometry : Geometry capacity d) (s : Mbuf) (pktlen : BitVec 32)
    (same : pktlen.toInt = d.len) :
    Geometry capacity (mbPkthdrInit d s pktlen) := by
  exact {
    data := geometry.data
    nonneg := geometry.nonneg
    total := geometry.total
    pkthdr := same }

/-- An mbuf got for the whole of another one, trimmed to the layout of that. -/
theorem geometry_copy {capacity : Int} {fresh m : Mbuf}
    (geometry : Geometry capacity fresh)
    (whole : fresh.len = m.len + m.headspace + m.tailspace)
    (nohead : fresh.headspace = 0) (notail : fresh.tailspace = 0)
    (nonneg : 0 ≤ m.len) :
    Geometry capacity
      (mbPkthdrInit (mbAdjTail (mbAdjHead fresh (-m.headspace)) (-m.tailspace))
        m m.mLen) := by
  have heads := m.headspace_range
  have tails := m.tailspace_range
  have lens := m.len_range
  have freshLens := fresh.len_range
  have headed := (geometry_mbAdjHead_iff geometry (-m.headspace)).mpr (by
    unfold INT_MAX UINT16_MAX
    omega)
  have headedLen := mbAdjHead_len fresh (-m.headspace)
  have headedTail := mbAdjHead_tailspace fresh (-m.headspace)
  have tailed := (geometry_mbAdjTail_iff headed (-m.tailspace) (by
    unfold INT_MAX
    omega)).mpr (by
      unfold INT_MAX UINT16_MAX
      omega)
  apply geometry_mbPkthdrInit tailed
  rw [mbAdjTail_len]
  change m.len = _
  omega

theorem geometry_mbDup {capacity : Int} {m : Mbuf}
    (geometry : Geometry capacity m) (limit : MbufLimit)
    (malloc : Option Int) :
    ∃ nm after, mbDup limit m malloc = some (nm, after) ∧
      ∀ block ∈ nm, Geometry block.capacity block.mbuf := by
  unfold mbDup
  cases got : mbGet limit
      (BitVec.ofInt 32 (m.len + m.headspace + m.tailspace)) forRx malloc with
  | mk nm after =>
      cases nm with
      | none => exact ⟨none, after, rfl, fun _ none => nomatch none⟩
      | some block =>
          obtain ⟨nonneg, place, -, made⟩ := mbGet_some limit after _ _ malloc
            block got
          have heads := m.headspace_range
          have tails := m.tailspace_range
          have lens := m.len_range
          have positive := geometry.nonneg
          have whole := toInt_ofInt_32 (m.len + m.headspace + m.tailspace)
          simp only
          rw [if_neg (by omega)]
          refine ⟨_, after, rfl, ?_⟩
          simp only [Option.mem_some_iff, forall_eq']
          apply geometry_copy (geometry_mbGet limit after _ _ malloc block got)
          · rw [made]
            change (BitVec.ofInt 32 _).toInt = _
            omega
          · rw [made]
            rfl
          · rw [made]
            rfl
          · exact positive

theorem geometry_mbSplit_iff {capacity : Int} {m0 : Mbuf}
    (geometry : Geometry capacity m0) (limit : MbufLimit) (place : Nat)
    (len0 : BitVec 32) (malloc : Option Int) :
    ((∀ block ∈ (mbSplit limit m0 len0 malloc).1,
        Geometry block.capacity block.mbuf) ∧
      Geometry capacity (mbSplit limit m0 len0 malloc).2.1) ↔
      Fits limit m0 (.split place len0 malloc) := by
  have lens := m0.len_range
  have tails := m0.tailspace_range
  unfold mbSplit Fits
  by_cases first : len0.toInt ≤ 0
  · rw [if_pos first]
    exact iff_of_true ⟨fun _ none => (nomatch none), geometry⟩ (by omega)
  · rw [if_neg first]
    by_cases short : m0.len ≤ len0.toInt
    · rw [if_pos short]
      exact iff_of_true ⟨fun _ none => (nomatch none), geometry⟩ (by omega)
    · rw [if_neg short]
      have exactLen := toInt_ofInt_32 (m0.len - len0.toInt)
      simp only
      cases got : mbGet limit (BitVec.ofInt 32 (m0.len - len0.toInt)) forRx
          malloc with
      | mk m after =>
          cases m with
          | none =>
              exact iff_of_true ⟨fun _ none => (nomatch none), geometry⟩
                (fun _ _ impossible => nomatch impossible)
          | some block =>
              have made := geometry_mbGet limit after _ _ malloc block got
              obtain ⟨-, here, -, same⟩ := mbGet_some limit after _ _ malloc
                block got
              have fresh : ∀ block' ∈ some { block with
                  mbuf := mbPkthdrInit block.mbuf m0
                    (BitVec.ofInt 32 (m0.len - len0.toInt)) },
                  Geometry block'.capacity block'.mbuf := by
                simp only [Option.mem_some_iff, forall_eq']
                apply geometry_mbPkthdrInit made
                rw [same]
                rfl
              simp only
              rw [and_iff_right fresh,
                geometry_mbAdjTail_iff geometry _ (by
                  unfold INT_MAX
                  omega)]
              unfold INT_MAX UINT16_MAX
              constructor
              · intro moved _ _ _
                omega
              · intro fits
                have room := fits (by omega) (by omega) rfl
                omega

/-! ### All mbufs -/

theorem laid_set_iff (live : List Block) (place : Nat) (block : Block)
    (mbuf : Mbuf) (here : live[place]? = some block)
    (laid : ∀ other ∈ live, Geometry other.capacity other.mbuf) :
    (∀ other ∈ live.set place { block with mbuf },
      Geometry other.capacity other.mbuf) ↔ Geometry block.capacity mbuf := by
  constructor
  · intro all
    exact all { block with mbuf } (List.mem_set (by
      have := List.getElem?_eq_some_iff.mp here
      exact this.1) _)
  · intro kept other member
    rcases List.mem_or_eq_of_mem_set member with old | new
    · exact laid other old
    · rw [new]
      exact kept

theorem laid_add (pool : MbufPool) (got : Option Block × MbufLimit)
    (laid : ∀ block ∈ pool.live, Geometry block.capacity block.mbuf) :
    Geometrical (some (pool.add got)) ↔
      ∀ block ∈ got.1, Geometry block.capacity block.mbuf := by
  unfold Geometrical MbufPool.add
  simp only [List.mem_append, Option.mem_toList]
  constructor
  · intro all block new
    exact all block (Or.inr new)
  · rintro fresh block (old | new)
    · exact laid block old
    · exact fresh block new

theorem laid_free (pool : MbufPool) (place : Nat) (block : Block)
    (laid : ∀ block ∈ pool.live, Geometry block.capacity block.mbuf) :
    Geometrical (some (pool.free place block)) :=
  fun other member => laid other (List.mem_of_mem_eraseIdx member)

/-- A call keeps the layout of all mbufs exactly if what it asks for fits. -/
theorem geometrical_callOn (pool : MbufPool) (place : Nat) (block : Block)
    (call : MbufCall) (named : call.place = some place)
    (here : pool.live[place]? = some block)
    (laid : ∀ block ∈ pool.live, Geometry block.capacity block.mbuf) :
    Geometrical (pool.callOn place block call) ↔
      Fits pool.limit block.mbuf call := by
  have geometry := laid block (List.mem_of_getElem? here)
  cases call with
  | setLimit tx rx txrx => cases named
  | get len tx malloc => cases named
  | dup place' malloc =>
      obtain ⟨nm, after, copied, fresh⟩ := geometry_mbDup geometry pool.limit
        malloc
      refine iff_of_true ?_ trivial
      simp only [MbufPool.callOn, copied, Option.map_some]
      exact (laid_add pool (nm, after) laid).mpr fresh
  | split place' len0 malloc =>
      rw [← geometry_mbSplit_iff geometry pool.limit place' len0 malloc]
      change Geometrical (some ((pool.put place block
        (mbSplit pool.limit block.mbuf len0 malloc).2.1).add _)) ↔ _
      rw [and_comm, ← laid_set_iff pool.live place block _ here laid]
      constructor
      · intro all
        refine ⟨fun other old => all other (List.mem_append_left _ old), ?_⟩
        exact fun new made =>
          all new (List.mem_append_right _ (Option.mem_toList.mpr made))
      · rintro ⟨old, fresh⟩
        exact (laid_add _ _ old).mpr fresh
  | adj place' reqLen =>
      exact (laid_set_iff pool.live place block _ here laid).trans
        (geometry_mbAdj_iff geometry pool.limit place' reqLen)
  | append place' len cp =>
      rw [← geometry_mbAppend_iff geometry pool.limit place' len cp]
      simp only [MbufPool.callOn]
      cases appended : mbAppend block.mbuf len cp with
      | none =>
          exact iff_of_false id fun ⟨_, impossible, _⟩ => nomatch impossible
      | some done =>
          simp only [Option.some.injEq, exists_eq_left', Option.map_some]
          exact laid_set_iff pool.live place block _ here laid
  | reserve place' len headspace tailspace =>
      exact (laid_set_iff pool.live place block _ here laid).trans
        (geometry_mbReserve_iff geometry pool.limit place' len headspace
          tailspace)
  | prepend place' plen =>
      rw [← geometry_mbPrepend_iff geometry pool.limit place' plen]
      simp only [MbufPool.callOn]
      cases mbPrepend block.mbuf plen with
      | none =>
          exact iff_of_true (laid_free pool place block laid)
            fun _ impossible => nomatch impossible
      | some mbuf =>
          simp only [Option.mem_some_iff, forall_eq']
          exact laid_set_iff pool.live place block _ here laid
  | free place' =>
      exact iff_of_true (laid_free pool place block laid) trivial

theorem geometrical_call (pool : MbufPool) (call : MbufCall)
    (laid : Geometrical (some pool)) :
    Geometrical (pool.call call) ↔ CallFits (some pool) call := by
  cases named : call.place with
  | none =>
      have fits : CallFits (some pool) call := fun place member => by
        rw [named] at member
        cases member
      refine iff_of_true ?_ fits
      cases call with
      | setLimit tx rx txrx => exact laid
      | get len tx malloc =>
          refine (laid_add pool _ laid).mpr ?_
          intro block got
          exact geometry_mbGet pool.limit (mbGet pool.limit len tx malloc).2 len
            tx malloc block (Prod.ext got rfl)
      | _ => cases named
  | some place =>
      unfold CallFits
      simp only [named, Option.mem_some_iff, forall_eq']
      cases here : pool.live[place]? with
      | none =>
          rw [pool.call_unplaced call place named here]
          exact iff_of_true laid fun _ impossible => nomatch impossible
      | some block =>
          rw [pool.call_placed call place block named here]
          simp only [Option.mem_some_iff, forall_eq']
          exact geometrical_callOn pool place block call named here laid

/-! ### Refusals -/

theorem ite_refused (condition : Prop) [Decidable condition] (m moved : Mbuf)
    (failed : (if condition then ((-1 : Int), m) else (0, moved)).1 = -1) :
    (if condition then ((-1 : Int), m) else (0, moved)).2 = m := by
  by_cases refused : condition
  · rw [if_pos refused]
  · rw [if_neg refused] at failed
    cases failed

theorem mbAdj_refused (m : Mbuf) (reqLen : BitVec 32)
    (failed : (mbAdj m reqLen).1 = -1) : (mbAdj m reqLen).2 = m := by
  unfold mbAdj at *
  by_cases front : 0 ≤ reqLen.toInt
  · rw [if_pos front] at *
    exact ite_refused _ m _ failed
  · rw [if_neg front] at *
    exact ite_refused _ m _ failed

theorem mbAppend_refused (m : Mbuf) (len : BitVec 32) (cp : Bool)
    (done : Int × Mbuf) (appended : mbAppend m len cp = some done)
    (failed : done.1 = 0) : done.2 = m := by
  unfold mbAppend at appended
  split at appended
  · cases appended
    rfl
  · split at appended
    · cases appended
    · cases appended
      cases failed

theorem mbReserve_refused (m : Mbuf) (len : BitVec 32)
    (headspace tailspace : BitVec 16)
    (failed : (mbReserve m len headspace tailspace).1 = -1) :
    (mbReserve m len headspace tailspace).2 = m := by
  unfold mbReserve at *
  split at failed
  · cases failed
  · rename_i room
    rw [if_neg room]

theorem mbSplit_refused (limit : MbufLimit) (m0 : Mbuf) (len0 : BitVec 32)
    (malloc : Option Int) (failed : (mbSplit limit m0 len0 malloc).1 = none) :
    (mbSplit limit m0 len0 malloc).2.1 = m0 := by
  unfold mbSplit at *
  split
  · rfl
  · split
    · rfl
    · simp only at failed ⊢
      cases got : mbGet limit (BitVec.ofInt 32 (m0.len - len0.toInt)) forRx
          malloc with
      | mk m after =>
          cases m with
          | none => rfl
          | some block =>
              rw [got] at failed
              rename_i first short
              rw [if_neg first, if_neg short] at failed
              cases failed

/-- The layout of every mbuf is right throughout a run exactly if the lengths
that the calls ask for fit; and what reports a failure has changed nothing. -/
theorem geometry_iff (calls : List MbufCall) :
    (Always step Geometrical (some MbufPool.create) calls ↔
      Along step CallFits (some MbufPool.create) calls) ∧
    (∀ m reqLen, (mbAdj m reqLen).1 = -1 → (mbAdj m reqLen).2 = m) ∧
    (∀ m len cp done, mbAppend m len cp = some done → done.1 = 0 →
      done.2 = m) ∧
    (∀ m len headspace tailspace,
      (mbReserve m len headspace tailspace).1 = -1 →
        (mbReserve m len headspace tailspace).2 = m) ∧
    ∀ limit m0 len0 malloc, (mbSplit limit m0 len0 malloc).1 = none →
      (mbSplit limit m0 len0 malloc).2.1 = m0 := by
  refine ⟨?_, mbAdj_refused, mbAppend_refused, mbReserve_refused,
    mbSplit_refused⟩
  apply always_iff_along Geometrical CallFits fun _ => True
  · intro pool call _ _ _
    trivial
  · intro pool call _ laid
    cases pool with
    | none => exact absurd laid id
    | some pool => exact geometrical_call pool call laid
  · trivial
  · intro block member
    cases member

/-- Eleven bytes are taken off an mbuf of ten with a negative `mb_append`. -/
theorem negativeAppend_misplaced :
    ¬ Geometrical (run step (some MbufPool.create)
      [.get 10 0 (some 0), .append 0 (-11) false]) := by
  intro laid
  have nonneg := (laid
    { size := 58
      mbuf := { mbufAt 0 10 false 0 with
        mLen := -1, mTailspace := 11, mPkthdrLen := -1 } } (by decide)).nonneg
  revert nonneg
  decide

end XR872.Mbufs
