/-
What is in an mbuf, and where it is copied.

Memory is addressed by bytes. An mbuf has a header in front of its data area;
what is stored there is in the `Mbuf`, and the memory itself is cleared. As
elsewhere, a copy whose length is negative runs over all of memory and has no
next state.
-/

import XR872.Library.BitView
import XR872.Library.Memory
import XR872.Mbuf.Geometry

namespace XR872.Mbufs

open BitView
open MachineInts
open Memories

def Mbuf.content (m : Mbuf) (memory : Nat → Byte) : List Byte :=
  load memory m.mData.toNat m.len.toNat

def memcpy (memory : Nat → Byte) (dst src : Int) (count : Nat) : Nat → Byte :=
  store memory dst.toNat (load memory src.toNat count)

/-- `mb_get` where the memory is followed; `malloc` answers to a size. -/
def mbGetIn (memory : Nat → Byte) (limit : MbufLimit) (len tx : BitVec 32)
    (malloc : BitVec 32 → Option Int) :
    Option Block × MbufLimit × (Nat → Byte) :=
  match mbGet limit len tx (malloc (totLen len (tx &&& 1 ≠ 0))) with
  | (some m, limit) =>
      (some m, limit, store memory (m.mbuf.mBuf - MBUF_SIZE).toNat
        (List.replicate MBUF_SIZE.toNat 0))
  | (none, limit) => (none, limit, memory)

/-- Create a new mbuf including all data; there is no `data` of NULL. -/
def mbCreate (memory : Nat → Byte) (limit : MbufLimit) (data : Option Int)
    (len tx : BitVec 32) (malloc : BitVec 32 → Option Int) :
    Option Block × MbufLimit × (Nat → Byte) :=
  match mbGetIn memory limit len tx malloc, data with
  | (some m, limit, memory), some data =>
      (some m, limit, memcpy memory m.mbuf.mData data len.toInt.toNat)
  | got, _ => got

/-- `mb_split` where the memory is followed. -/
def mbSplitIn (memory : Nat → Byte) (limit : MbufLimit) (m0 : Mbuf)
    (len0 : BitVec 32) (malloc : BitVec 32 → Option Int) :
    Option Block × Mbuf × MbufLimit × (Nat → Byte) :=
  if len0.toInt ≤ 0 then (none, m0, limit, memory)
  else if m0.len ≤ len0.toInt then (none, m0, limit, memory)
  else
    let len := BitVec.ofInt 32 (m0.len - len0.toInt)
    match mbCreate memory limit (some (m0.mData + len0.toInt)) len forRx
        malloc with
    | (none, limit, memory) => (none, m0, limit, memory)
    | (some m, limit, memory) =>
        (some { m with mbuf := mbPkthdrInit m.mbuf m0 len },
          mbAdjTail m0 (-len.toInt), limit, memory)

/-- `mb_dup` where the memory is followed. -/
def mbDupIn (memory : Nat → Byte) (limit : MbufLimit) (m : Mbuf)
    (malloc : BitVec 32 → Option Int) :
    Option (Option Block × MbufLimit × (Nat → Byte)) :=
  match mbGetIn memory limit
      (BitVec.ofInt 32 (m.len + m.headspace + m.tailspace)) forRx malloc with
  | (none, limit, memory) => some (none, limit, memory)
  | (some nm, limit, memory) =>
      if m.len < 0 then none
      else
        let copy := mbAdjTail (mbAdjHead nm.mbuf (-m.headspace)) (-m.tailspace)
        some (some { nm with mbuf := mbPkthdrInit copy m m.mLen }, limit,
          memcpy memory copy.mData m.mData m.len.toNat)

/-- Copy data starting `off` bytes from the beginning: what is returned, and
the memory. -/
def mbCopydata (memory : Nat → Byte) (m : Mbuf) (off len : BitVec 32)
    (cp : Int) : Option (Int × (Nat → Byte)) :=
  if off.toInt < 0 ∨ len.toInt ≤ 0 then some (0, memory)
  else
    let copyLen := BitVec.ofInt 32 (m.len - off.toInt)
    let copyLen := if len.toInt < copyLen.toInt then len else copyLen
    if copyLen.toInt < 0 then none
    else
      some (copyLen.toInt,
        memcpy memory cp (m.mData + off.toInt) copyLen.toInt.toNat)

/-! ### Without the memory -/

section Forget

variable (memory : Nat → Byte) (limit : MbufLimit)
  (malloc : BitVec 32 → Option Int)

theorem mbGetIn_forget (len tx : BitVec 32) :
    ((mbGetIn memory limit len tx malloc).1,
        (mbGetIn memory limit len tx malloc).2.1) =
      mbGet limit len tx (malloc (totLen len (tx &&& 1 ≠ 0))) := by
  unfold mbGetIn
  rcases mbGet limit len tx (malloc (totLen len (tx &&& 1 ≠ 0))) with
    ⟨got, after⟩
  cases got with
  | none => rfl
  | some m => rfl

theorem mbSplitIn_forget (m0 : Mbuf) (len0 : BitVec 32) :
    ((mbSplitIn memory limit m0 len0 malloc).1,
        (mbSplitIn memory limit m0 len0 malloc).2.1,
        (mbSplitIn memory limit m0 len0 malloc).2.2.1) =
      mbSplit limit m0 len0 (malloc
        (totLen (BitVec.ofInt 32 (m0.len - len0.toInt)) false)) := by
  have got := mbGetIn_forget memory limit malloc
    (BitVec.ofInt 32 (m0.len - len0.toInt)) forRx
  change _ = mbGet limit _ forRx (malloc (totLen _ false)) at got
  unfold mbSplitIn mbSplit mbCreate
  split
  · rfl
  · split
    · rfl
    · dsimp only
      rw [← got]
      rcases mbGetIn memory limit (BitVec.ofInt 32 (m0.len - len0.toInt)) forRx
        malloc with ⟨m, after, memory⟩
      cases m with
      | none => rfl
      | some m => rfl

theorem mbDupIn_forget (m : Mbuf) :
    (mbDupIn memory limit m malloc).map
        (fun done => (done.1, done.2.1)) =
      mbDup limit m (malloc (totLen
        (BitVec.ofInt 32 (m.len + m.headspace + m.tailspace)) false)) := by
  have got := mbGetIn_forget memory limit malloc
    (BitVec.ofInt 32 (m.len + m.headspace + m.tailspace)) forRx
  change _ = mbGet limit _ forRx (malloc (totLen _ false)) at got
  unfold mbDupIn mbDup
  rw [← got]
  rcases mbGetIn memory limit
    (BitVec.ofInt 32 (m.len + m.headspace + m.tailspace)) forRx malloc with
    ⟨nm, after, memory⟩
  cases nm with
  | none => rfl
  | some nm =>
      dsimp only
      split
      · rfl
      · rfl

end Forget

/-! ### What stays as it is -/

/-- A block that the allocator gives is in memory, and apart from the mbuf
that is in use. -/
structure Fresh (malloc : BitVec 32 → Option Int) (capacity : Int) (m : Mbuf) :
    Prop where
  inMemory : ∀ size place, malloc size = some place → 0 ≤ place
  apart : ∀ size place, malloc size = some place →
    place + size.toNat ≤ m.mBuf - MBUF_SIZE ∨ m.mBuf + capacity ≤ place

/-- The mbuf is in memory, with its header. -/
def InMemory (m : Mbuf) : Prop := MBUF_SIZE ≤ m.mBuf

theorem load_store_apart (memory : Nat → Byte) (place : Int) (data : List Byte)
    (start : Int) (size : Nat) (low : 0 ≤ place) (low' : 0 ≤ start)
    (apart : place + data.length ≤ start ∨ start + size ≤ place) :
    load (store memory place.toNat data) start.toNat size =
      load memory start.toNat size := by
  apply load_congr
  intro index within
  apply store_outside
  omega

theorem load_memcpy (memory : Nat → Byte) (dst src : Int) (count : Nat) :
    load (memcpy memory dst src count) dst.toNat count =
      load memory src.toNat count := by
  have same := load_store memory dst.toNat (load memory src.toNat count)
  rw [length_load] at same
  exact same

theorem mbGetIn_some {malloc : BitVec 32 → Option Int} {capacity : Int}
    {m : Mbuf} (fresh : Fresh malloc capacity m) (held : InMemory m)
    (memory memory' : Nat → Byte)
    (limit after : MbufLimit) (len : BitVec 32) (block : Block)
    (got : mbGetIn memory limit len forRx malloc =
      (some block, after, memory')) :
    ∃ place, 0 ≤ place ∧ 0 ≤ len.toInt ∧
      block.mbuf = mbufAt place len false 0x20 ∧
      (place + MBUF_SIZE + len.toInt ≤ m.mBuf - MBUF_SIZE ∨
        m.mBuf + capacity ≤ place) ∧
      ∀ (start : Int) (size : Nat), m.mBuf ≤ start →
        start + size ≤ m.mBuf + capacity →
        load memory' start.toNat size = load memory start.toNat size := by
  have forget := mbGetIn_forget memory limit malloc len forRx
  rw [got] at forget
  obtain ⟨nonneg, place, given, made⟩ :=
    mbGet_some limit after len forRx _ block forget.symm
  change malloc (totLen len false) = some place at given
  have size := totLen_toNat len false nonneg
  have apart := fresh.apart _ place given
  rw [size] at apart
  change place + (MBUF_SIZE + len.toInt + 0) ≤ _ ∨ _ at apart
  have mbuf : block.mbuf = mbufAt place len false 0x20 := by
    rw [made]
    rfl
  have low := fresh.inMemory _ place given
  refine ⟨place, low, nonneg, mbuf, by omega, ?_⟩
  intro start size after_ before
  have cleared : memory' = store memory place.toNat
      (List.replicate MBUF_SIZE.toNat 0) := by
    unfold mbGetIn at got
    rw [← forget] at got
    injection got with _ got
    injection got with _ got
    rw [← got, mbuf]
    change store memory (place + MBUF_SIZE - MBUF_SIZE).toNat _ = _
    rw [Int.add_sub_cancel]
  unfold InMemory MBUF_SIZE at held
  unfold MBUF_SIZE at apart
  rw [cleared]
  apply load_store_apart _ _ _ _ _ low (by omega)
  rw [List.length_replicate]
  change place + 48 ≤ start ∨ _
  omega

theorem mbGetIn_none (malloc : BitVec 32 → Option Int)
    (memory memory' : Nat → Byte) (limit after : MbufLimit) (len : BitVec 32)
    (got : mbGetIn memory limit len forRx malloc = (none, after, memory')) :
    memory' = memory := by
  have forget := mbGetIn_forget memory limit malloc len forRx
  rw [got] at forget
  unfold mbGetIn at got
  rw [← forget] at got
  injection got with _ got
  injection got with _ got
  exact got.symm

/-! ### Split, copy, copy out -/

/-- The mbuf keeps its first bytes and the new one has the others; without a
new one nothing happens. -/
structure SplitKept (memory : Nat → Byte) (m0 : Mbuf) (len0 : BitVec 32)
    (done : Option Block × Mbuf × MbufLimit × (Nat → Byte)) : Prop where
  cut : ∀ m, done.1 = some m →
    done.2.1.content done.2.2.2 = (m0.content memory).take len0.toInt.toNat ∧
      done.2.1.len = len0.toInt ∧
      done.2.1.content done.2.2.2 ++ m.mbuf.content done.2.2.2 =
        m0.content memory
  failed : done.1 = none → done.2.1 = m0 ∧ done.2.2.2 = memory

/-- The new mbuf has the data and the spaces of the old one. -/
structure DupKept (memory : Nat → Byte) (m : Mbuf)
    (done : Option Block × MbufLimit × (Nat → Byte)) : Prop where
  content : ∀ nm, done.1 = some nm →
    nm.mbuf.content done.2.2 = m.content memory
  spaces : ∀ nm, done.1 = some nm → nm.mbuf.headspace = m.headspace ∧
    nm.mbuf.tailspace = m.tailspace ∧ nm.mbuf.pkthdrLen = m.pkthdrLen
  kept : m.content done.2.2 = m.content memory

/-- So many bytes are copied, and no others are changed. -/
def Copied (memory : Nat → Byte) (m : Mbuf) (off : BitVec 32) (cp count : Int)
    (done : Option (Int × (Nat → Byte))) : Prop :=
  ∃ memory', done = some (count, memory') ∧
    load memory' cp.toNat count.toNat =
      load memory (m.mData + off.toInt).toNat count.toNat ∧
    ∀ address : Nat, address < cp ∨ cp + count ≤ address →
      memory' address = memory address

section Kept

variable {malloc : BitVec 32 → Option Int} {capacity : Int} {m : Mbuf}

theorem splitKept (geometry : Geometry capacity m) (held : InMemory m)
    (fresh : Fresh malloc capacity m) (memory : Nat → Byte)
    (limit : MbufLimit) (len0 : BitVec 32) :
    SplitKept memory m len0 (mbSplitIn memory limit m len0 malloc) := by
  have lens := m.len_range
  have heads := m.headspace_range
  have tails := m.tailspace_range
  obtain ⟨data, nonneg, total, -⟩ := geometry
  unfold mbSplitIn
  by_cases first : len0.toInt ≤ 0
  · rw [if_pos first]
    exact ⟨nofun, fun _ => ⟨rfl, rfl⟩⟩
  · rw [if_neg first]
    by_cases short : m.len ≤ len0.toInt
    · rw [if_pos short]
      exact ⟨nofun, fun _ => ⟨rfl, rfl⟩⟩
    · rw [if_neg short]
      have exactLen := toInt_ofInt_32 (m.len - len0.toInt)
      unfold mbCreate
      dsimp only
      rcases got : mbGetIn memory limit
        (BitVec.ofInt 32 (m.len - len0.toInt)) forRx malloc with
        ⟨block, after, cleared⟩
      cases block with
      | none =>
          exact ⟨nofun, fun _ =>
            ⟨rfl, mbGetIn_none malloc memory cleared limit after _ got⟩⟩
      | some block =>
          obtain ⟨place, low, -, mbuf, apart, same⟩ :=
            mbGetIn_some fresh held memory cleared limit after _ block got
          generalize BitVec.ofInt 32 (m.len - len0.toInt) = len at *
          rw [show (m.len - len0.toInt + 2147483648) % 4294967296 -
            2147483648 = m.len - len0.toInt by omega] at exactLen
          unfold InMemory at held
          unfold MBUF_SIZE at held apart
          have left : (mbAdjTail m (-len.toInt)).len = len0.toInt := by
            rw [mbAdjTail_len]
            omega
          have place' : block.mbuf.mData = place + 48 := by
            rw [mbuf]
            rfl
          have len' : block.mbuf.len = len.toInt := by
            rw [mbuf]
            rfl
          have front : load (memcpy cleared block.mbuf.mData
              (m.mData + len0.toInt) len.toInt.toNat) m.mData.toNat
                len0.toInt.toNat =
              load memory m.mData.toNat len0.toInt.toNat := by
            unfold memcpy
            rw [load_store_apart _ _ _ _ _ (by omega) (by omega) (by
                rw [length_load, place']
                omega),
              same _ _ (by omega) (by omega)]
          have back : load (memcpy cleared block.mbuf.mData
              (m.mData + len0.toInt) len.toInt.toNat) block.mbuf.mData.toNat
                len.toInt.toNat =
              load memory (m.mData.toNat + len0.toInt.toNat) len.toInt.toNat := by
            rw [load_memcpy, same _ _ (by omega) (by omega)]
            congr 1
            omega
          have whole : m.len.toNat = len0.toInt.toNat + len.toInt.toNat := by
            omega
          refine ⟨?_, nofun⟩
          intro new some_
          cases some_
          have kept : (mbAdjTail m (-len.toInt)).content
              (memcpy cleared block.mbuf.mData (m.mData + len0.toInt)
                len.toInt.toNat) =
              load memory m.mData.toNat len0.toInt.toNat := by
            unfold Mbuf.content
            rw [left]
            exact front
          have moved : (mbPkthdrInit block.mbuf m len).content
              (memcpy cleared block.mbuf.mData (m.mData + len0.toInt)
                len.toInt.toNat) =
              load memory (m.mData.toNat + len0.toInt.toNat)
                len.toInt.toNat := by
            unfold Mbuf.content
            change load _ block.mbuf.mData.toNat block.mbuf.len.toNat = _
            rw [len']
            exact back
          dsimp only
          rw [kept, moved]
          unfold Mbuf.content
          rw [whole, load_append, List.take_left' (length_load _ _ _)]
          exact ⟨rfl, left, rfl⟩

theorem dupKept (geometry : Geometry capacity m) (held : InMemory m)
    (fresh : Fresh malloc capacity m) (memory : Nat → Byte)
    (limit : MbufLimit) :
    ∃ done, mbDupIn memory limit m malloc = some done ∧
      DupKept memory m done := by
  have lens := m.len_range
  have heads := m.headspace_range
  have tails := m.tailspace_range
  obtain ⟨data, nonneg, total, pkthdr⟩ := geometry
  have whole := toInt_ofInt_32 (m.len + m.headspace + m.tailspace)
  unfold mbDupIn
  rcases got : mbGetIn memory limit
    (BitVec.ofInt 32 (m.len + m.headspace + m.tailspace)) forRx malloc with
    ⟨block, after, cleared⟩
  cases block with
  | none =>
      have same := mbGetIn_none malloc memory cleared limit after _ got
      refine ⟨_, rfl, nofun, nofun, ?_⟩
      rw [same]
  | some block =>
      obtain ⟨place, low, positive, mbuf, apart, same⟩ :=
        mbGetIn_some fresh held memory cleared limit after _ block got
      unfold InMemory at held
      unfold MBUF_SIZE at held apart
      rw [whole] at positive apart
      have none : block.mbuf.headspace = 0 ∧ block.mbuf.tailspace = 0 ∧
          block.mbuf.len = m.len + m.headspace + m.tailspace := by
        rw [mbuf]
        refine ⟨rfl, rfl, ?_⟩
        change (BitVec.ofInt 32 _).toInt = _
        omega
      have place' : (mbAdjTail (mbAdjHead block.mbuf (-m.headspace))
          (-m.tailspace)).mData = place + 48 + m.headspace := by
        rw [mbuf]
        change place + 48 - -m.headspace = _
        omega
      have headspace' : (mbAdjHead block.mbuf (-m.headspace)).headspace =
          m.headspace := by
        rw [mbAdjHead_headspace, none.1]
        omega
      have tailspace' : (mbAdjTail (mbAdjHead block.mbuf (-m.headspace))
          (-m.tailspace)).tailspace = m.tailspace := by
        rw [mbAdjTail_tailspace, mbAdjHead_tailspace, none.2.1]
        omega
      have len' : (mbAdjTail (mbAdjHead block.mbuf (-m.headspace))
          (-m.tailspace)).len = m.len := by
        rw [mbAdjTail_len, mbAdjHead_len, none.2.2]
        omega
      dsimp only
      rw [if_neg (by omega)]
      refine ⟨_, rfl, ?_, ?_, ?_⟩
      · intro new some_
        cases some_
        unfold Mbuf.content
        change load _ (mbAdjTail (mbAdjHead block.mbuf (-m.headspace))
          (-m.tailspace)).mData.toNat (mbAdjTail (mbAdjHead block.mbuf
            (-m.headspace)) (-m.tailspace)).len.toNat = _
        rw [len', load_memcpy]
        exact same _ _ (by omega) (by omega)
      · intro new some_
        cases some_
        exact ⟨headspace', tailspace', pkthdr.symm⟩
      · unfold Mbuf.content memcpy
        dsimp only
        rw [place', load_store_apart _ _ _ _ _ (by omega) (by omega) (by
          rw [length_load]
          omega)]
        exact same _ _ (by omega) (by omega)

theorem copied (geometry : Geometry capacity m) (memory : Nat → Byte)
    (off len : BitVec 32) (cp : Int) (low : 0 ≤ cp)
    (within : 0 < len.toInt → off.toInt ≤ m.len) :
    Copied memory m off cp
      (if off.toInt < 0 then 0 else max 0 (min len.toInt (m.len - off.toInt)))
      (mbCopydata memory m off len cp) := by
  have lens := m.len_range
  have range := toInt_range_32 off
  have rest := toInt_ofInt_32 (m.len - off.toInt)
  have nonneg := geometry.nonneg
  unfold mbCopydata
  by_cases refused : off.toInt < 0 ∨ len.toInt ≤ 0
  · rw [if_pos refused]
    have none : (if off.toInt < 0 then 0
        else max 0 (min len.toInt (m.len - off.toInt))) = 0 := by
      split <;> omega
    rw [none]
    exact ⟨memory, rfl, rfl, fun _ _ => rfl⟩
  · have count : (if len.toInt < (BitVec.ofInt 32 (m.len - off.toInt)).toInt
        then len else BitVec.ofInt 32 (m.len - off.toInt)).toInt =
        max 0 (min len.toInt (m.len - off.toInt)) := by
      split <;> omega
    rw [if_neg refused, if_neg (fun negative => refused (Or.inl negative))]
    dsimp only
    rw [if_neg (by omega), count]
    refine ⟨_, rfl, load_memcpy _ _ _ _, ?_⟩
    intro address outside
    apply store_outside
    rw [length_load]
    omega

/-- Split and copy keep the data; copying out does as far as its offset is not
behind the data, and copies nothing from an offset in front of them. -/
theorem contentKept (geometry : Geometry capacity m) (held : InMemory m)
    (fresh : Fresh malloc capacity m) (memory : Nat → Byte)
    (limit : MbufLimit) :
    (∀ len0, SplitKept memory m len0 (mbSplitIn memory limit m len0 malloc)) ∧
      (∃ done, mbDupIn memory limit m malloc = some done ∧
        DupKept memory m done) ∧
      ∀ (off len : BitVec 32) (cp : Nat),
        (0 < len.toInt → off.toInt ≤ m.len) →
        Copied memory m off cp
          (if off.toInt < 0 then 0
            else max 0 (min len.toInt (m.len - off.toInt)))
          (mbCopydata memory m off len cp) :=
  ⟨splitKept geometry held fresh memory limit,
    dupKept geometry held fresh memory limit,
    fun off len cp => copied geometry memory off len cp (Int.natCast_nonneg cp)⟩

end Kept

/-- Four bytes with some space on both sides. -/
def fourBytes : Mbuf :=
  { mBuf := 1048, mData := 1052, mLen := 4, mHeadspace := 4, mTailspace := 2
    mType := 0, mFlags := M_PKTHDR, mPkthdrLen := 4 }

theorem geometry_fourBytes : Geometry 10 fourBytes :=
  ⟨rfl, Int.le.intro 4 rfl, rfl, rfl⟩

/-- One byte from the offset -1 are none, not one; from behind the data, the
copy runs over all of memory. -/
theorem mbCopydata_outside :
    (¬ ∀ (memory : Nat → Byte) (m : Mbuf) (capacity : Int),
      Geometry capacity m → ∀ (off len : BitVec 32) (cp : Nat),
        Copied memory m off cp (max 0 (min len.toInt (m.len - off.toInt)))
          (mbCopydata memory m off len cp)) ∧
      mbCopydata (fun _ => 0) fourBytes 5 1 0 = none := by
  refine ⟨?_, rfl⟩
  intro all
  obtain ⟨memory', same, -⟩ :=
    all (fun _ => 0) fourBytes 10 geometry_fourBytes (-1) 1 0
  change some ((0 : Int), _) = some ((1 : Int), memory') at same
  cases same

theorem contentKept_fourBytes :
    SplitKept (BitVec.ofNat 8) fourBytes 3
      (mbSplitIn (BitVec.ofNat 8) ⟨4096, 4096, 8192, 0, 0, 0⟩ fourBytes 3
        fun _ => some 2000) := by
  have fresh : Fresh (fun _ => some 2000) 10 fourBytes := by
    constructor
    · rintro size place ⟨⟩
      exact Int.le.intro 2000 rfl
    · rintro size place ⟨⟩
      right
      exact Int.le.intro 942 rfl
  exact (contentKept geometry_fourBytes (Int.le.intro 1000 rfl) fresh
    (BitVec.ofNat 8) ⟨4096, 4096, 8192, 0, 0, 0⟩).1 3

end XR872.Mbufs
