/-
Which image the bootloader boots.

The configuration names a sequence, or none. The sequences are tried in a ring
from there, and the one that boots is written back if it is not the one named.
-/

import XR872.Bootloader.Window

namespace XR872.Bootloader

open BitView
open Images

def imageInvalidAddr : BitVec 32 := 0xFFFFFFFF

/-- What the selection works with: the answer of `image_init`, the address of
the update area, the environment of a load at each running sequence, the
bootloader's RAM, and the configuration, if it can be read. -/
structure BlFlash (σ : Type) where
  imageInit : Bool
  otaAddr : BitVec 32
  running : ImageSeq → BlEnv σ
  ramBase : BitVec 32
  cfg : Option ImageCfg

/-- What the selection comes to: the entry, the sequences passed to
`image_set_running_seq`, and the configurations passed to `image_set_cfg`. -/
structure BlBoot where
  entry : BitVec 32
  selected : List ImageSeq
  written : List ImageCfg
deriving DecidableEq, Repr

/-- `(seq + 1) % IMAGE_SEQ_NUM`. -/
def nextSeq (seq : ImageSeq) : ImageSeq :=
  BitVec.ofNat 8 ((seq.toNat + 1) % imageSeqNum)

variable {σ : Type} (flash : BlFlash σ)

/-- `bl_load_app_bin` with a sequence running. -/
def loadApp (passes : Nat) (seq : ImageSeq) : Option (BitVec 32) :=
  blLoadAppBin (flash.running seq) flash.ramBase passes

/-- `cfg_seq`: the sequence named, or `IMAGE_SEQ_NUM` for none. -/
def cfgSeq : ImageSeq :=
  match flash.cfg with
  | some cfg =>
      if cfg.state = .verified then cfg.seq else BitVec.ofNat 8 imageSeqNum
  | none => BitVec.ofNat 8 imageSeqNum

/-- The loop, with so many sequences still to try; without a value a load is
still running. -/
def tryLoad (passes : Nat) : Nat → ImageSeq → List ImageSeq → Option BlBoot
  | 0, _, selected =>
      some { entry := blInvalidAppEntry, selected, written := [] }
  | tries + 1, loadSeq, selected =>
      (loadApp flash passes loadSeq).bind fun entry =>
        if entry ≠ blInvalidAppEntry then
          some {
            entry
            selected := selected ++ [loadSeq]
            written :=
              if loadSeq ≠ cfgSeq flash then
                [{ seq := loadSeq, state := .verified }]
              else [] }
        else tryLoad passes tries (nextSeq loadSeq) (selected ++ [loadSeq])

def blLoadBin (passes : Nat) : Option BlBoot :=
  if !flash.imageInit then
    some { entry := blInvalidAppEntry, selected := [], written := [] }
  else if flash.otaAddr = imageInvalidAddr then
    (loadApp flash passes 0).map fun entry =>
      { entry, selected := [0], written := [] }
  else
    let cfgSeq := cfgSeq flash
    let loadSeq := if cfgSeq = BitVec.ofNat 8 imageSeqNum then 0 else cfgSeq
    tryLoad flash passes imageSeqNum loadSeq []

/-! ### What is asked of the selection -/

def Bootable (seq : ImageSeq) : Prop :=
  seq.toNat < imageSeqNum ∧
    ∃ passes entry, loadApp flash passes seq = some entry ∧
      entry ≠ blInvalidAppEntry

def ringFrom : Nat → ImageSeq → List ImageSeq
  | 0, _ => []
  | count + 1, seq => seq :: ringFrom count (nextSeq seq)

/-- The ring from the sequence that is named, or from 0. -/
def order : List ImageSeq :=
  ringFrom imageSeqNum
    (if (cfgSeq flash).toNat < imageSeqNum then cfgSeq flash else 0)

def FirstBootable (seq : ImageSeq) : Prop :=
  ∃ before after, order flash = before ++ seq :: after ∧
    Bootable flash seq ∧ ∀ other ∈ before, ¬ Bootable flash other

def Named (seq : ImageSeq) : Prop :=
  flash.cfg = some { seq, state := .verified } ∧ Bootable flash seq

structure Selects (boot : BlBoot) : Prop where
  below : ∀ seq ∈ boot.selected, seq.toNat < imageSeqNum
  boots : (∃ seq, Bootable flash seq) → boot.entry ≠ blInvalidAppEntry
  named : ∀ seq, Named flash seq →
    boot.selected.getLast? = some seq ∧ boot.written = []
  otherwise : (∀ seq, ¬ Named flash seq) → boot.entry ≠ blInvalidAppEntry →
    ∃ seq, FirstBootable flash seq ∧ boot.selected.getLast? = some seq ∧
      boot.written = [{ seq, state := .verified }]
  entry : boot.entry ≠ blInvalidAppEntry →
    ∃ seq, boot.selected.getLast? = some seq ∧
      boot.entry = ((flash.running seq).rom.header imageAppId).entry

/-- A verified configuration names no sequence behind `IMAGE_SEQ_NUM`. -/
def NamesImage : Prop :=
  ∀ cfg, flash.cfg = some cfg → cfg.state = .verified →
    cfg.seq.toNat ≤ imageSeqNum

/-! ### Loads -/

theorem decompressLoop_stable (env : BlEnv σ) (sh : SectionHeader)
    (outSize passes more : Nat) (dec : BlDec σ) (last : Int)
    (ended : (decompressLoop env sh outSize passes dec).1 = some last) :
    decompressLoop env sh outSize (passes + more) dec =
      decompressLoop env sh outSize passes dec := by
  induction passes generalizing dec with
  | zero => cases ended
  | succ passes ih =>
      rw [Nat.succ_add]
      unfold decompressLoop at ended ⊢
      cases pass : decompressPass env sh outSize dec with
      | next next =>
          rw [pass] at ended
          exact ih next ended
      | stop ret last => rfl

theorem blLoadBinById_stable (env : BlEnv σ) (id maxAddr : BitVec 32)
    (passes more : Nat) (ret : BlLoadBin)
    (ended : (blLoadBinById env id maxAddr passes).ret = some ret) :
    blLoadBinById env id maxAddr (passes + more) =
      blLoadBinById env id maxAddr passes := by
  unfold blLoadBinById at ended ⊢
  dsimp only at ended ⊢
  split
  · rfl
  · rename_i read
    rw [if_neg read] at ended
    split
    · rfl
    · rename_i valid
      rw [if_neg valid] at ended
      split
      · rename_i compressed
        rw [if_pos compressed] at ended
        unfold blLoadCompressed at ended ⊢
        split
        · rfl
        · rename_i memory
          rw [if_neg memory] at ended
          split
          · rfl
          · rename_i decoder made
            rw [made] at ended
            obtain ⟨last, finished, _⟩ := Option.map_eq_some_iff.mp ended
            dsimp only
            rw [decompressLoop_stable env _ _ passes more _ last finished]
      · rfl

theorem loadApp_stable (passes more : Nat) (seq : ImageSeq)
    (entry : BitVec 32) (loaded : loadApp flash passes seq = some entry) :
    loadApp flash (passes + more) seq = some entry := by
  have loaded' := loaded
  unfold loadApp blLoadAppBin at loaded loaded' ⊢
  obtain ⟨ret, ended, _⟩ := Option.map_eq_some_iff.mp loaded
  rw [blLoadBinById_stable (flash.running seq) imageAppId flash.ramBase passes
    more ret ended]
  exact loaded'

theorem loadApp_unique (passes other : Nat) (seq : ImageSeq)
    (entry entry' : BitVec 32) (loaded : loadApp flash passes seq = some entry)
    (loaded' : loadApp flash other seq = some entry') : entry = entry' := by
  have left := loadApp_stable flash passes other seq entry loaded
  have right := loadApp_stable flash other passes seq entry' loaded'
  rw [Nat.add_comm, right] at left
  exact (Option.some.inj left).symm

theorem entry_blLoadBinById (env : BlEnv σ) (id maxAddr entry : BitVec 32)
    (passes : Nat)
    (given : (blLoadBinById env id maxAddr passes).entry = some entry) :
    entry = (env.rom.header id).entry := by
  unfold blLoadBinById at given
  dsimp only at given
  split at given
  · cases given
  · split at given
    · cases given
    · split at given
      · unfold blLoadCompressed at given
        split at given
        · cases given
        · split at given
          · cases given
          · dsimp only at given
            split at given
            · exact (Option.some.inj given).symm
            · cases given
      · unfold blLoadPlain at given
        split at given
        · cases given
        · split at given
          · cases given
          · dsimp only at given
            split at given
            · cases given
            · split at given
              · cases given
              · exact (Option.some.inj given).symm

theorem entry_loadApp (passes : Nat) (seq : ImageSeq) (entry : BitVec 32)
    (loaded : loadApp flash passes seq = some entry)
    (valid : entry ≠ blInvalidAppEntry) :
    entry = ((flash.running seq).rom.header imageAppId).entry := by
  unfold loadApp blLoadAppBin at loaded
  obtain ⟨ret, _, value⟩ := Option.map_eq_some_iff.mp loaded
  split at value
  · exact absurd value.symm valid
  · cases given : (blLoadBinById (flash.running seq) imageAppId flash.ramBase
        passes).entry with
    | none =>
        rw [given] at value
        exact absurd value.symm valid
    | some other =>
        rw [given] at value
        have same : other = entry := value
        rw [← same]
        exact entry_blLoadBinById _ _ _ other passes given

theorem bootable_iff (passes : Nat) (seq : ImageSeq) (entry : BitVec 32)
    (loaded : loadApp flash passes seq = some entry) :
    Bootable flash seq ↔
      seq.toNat < imageSeqNum ∧ entry ≠ blInvalidAppEntry := by
  constructor
  · rintro ⟨below, other, entry', loaded', valid⟩
    rw [loadApp_unique flash passes other seq entry entry' loaded loaded']
    exact ⟨below, valid⟩
  · rintro ⟨below, valid⟩
    exact ⟨below, passes, entry, loaded, valid⟩

/-! ### The ring -/

/-- The loop either finds the first sequence of the ring that loads, or has
tried them all. -/
theorem tryLoad_cases (passes tries : Nat) (first : ImageSeq)
    (selected : List ImageSeq) (boot : BlBoot)
    (returned : tryLoad flash passes tries first selected = some boot) :
    (∃ before seq after entry,
      ringFrom tries first = before ++ seq :: after ∧
        (∀ other ∈ before,
          loadApp flash passes other = some blInvalidAppEntry) ∧
        loadApp flash passes seq = some entry ∧ entry ≠ blInvalidAppEntry ∧
        boot = {
          entry
          selected := selected ++ (before ++ [seq])
          written :=
            if seq ≠ cfgSeq flash then [{ seq, state := .verified }]
            else [] }) ∨
      (∀ other ∈ ringFrom tries first,
          loadApp flash passes other = some blInvalidAppEntry) ∧
        boot = {
          entry := blInvalidAppEntry
          selected := selected ++ ringFrom tries first
          written := [] } := by
  induction tries generalizing first selected with
  | zero =>
      refine .inr ⟨fun other member => (by cases member), ?_⟩
      have none : ringFrom 0 first = [] := rfl
      rw [none, List.append_nil]
      exact (Option.some.inj returned).symm
  | succ tries ih =>
      unfold tryLoad at returned
      obtain ⟨entry, loaded, rest⟩ := Option.bind_eq_some_iff.mp returned
      split at rest
      · rename_i valid
        exact .inl ⟨[], first, _, entry, rfl,
          fun other member => (by cases member), loaded, valid,
          (Option.some.inj rest).symm⟩
      · rename_i failed
        rw [not_not.mp failed] at loaded
        rcases ih _ _ rest with ⟨before, seq, after, entry', ring, tried,
          found, valid, same⟩ | ⟨tried, same⟩
        · refine .inl ⟨first :: before, seq, after, entry', ?_, ?_, found,
            valid, ?_⟩
          · change first :: ringFrom tries (nextSeq first) = _
            rw [ring]
            rfl
          · exact List.forall_mem_cons.mpr ⟨loaded, tried⟩
          · rw [same, List.append_assoc]
            rfl
        · refine .inr ⟨List.forall_mem_cons.mpr ⟨loaded, tried⟩, ?_⟩
          rw [same, List.append_assoc]
          rfl

theorem nextSeq_lt (seq : ImageSeq) : (nextSeq seq).toNat < imageSeqNum := by
  unfold nextSeq
  rw [BitVec.toNat_ofNat]
  have small := Nat.mod_lt (seq.toNat + 1) (by decide : 0 < imageSeqNum)
  exact Nat.lt_of_le_of_lt (Nat.mod_le _ _) small

theorem ringFrom_lt (count : Nat) (first seq : ImageSeq)
    (below : first.toNat < imageSeqNum) (member : seq ∈ ringFrom count first) :
    seq.toNat < imageSeqNum := by
  induction count generalizing first with
  | zero => cases member
  | succ count ih =>
      rcases List.mem_cons.mp member with rfl | later
      · exact below
      · exact ih (nextSeq first) (nextSeq_lt first) later

theorem mem_ring (first seq : ImageSeq) (below : first.toNat < imageSeqNum)
    (small : seq.toNat < imageSeqNum) :
    seq ∈ ringFrom imageSeqNum first := by
  rcases seq_cases first below with rfl | rfl <;>
    rcases seq_cases seq small with rfl | rfl <;> decide

/-! ### The selection -/

def firstSeq : ImageSeq :=
  if cfgSeq flash = BitVec.ofNat 8 imageSeqNum then 0 else cfgSeq flash

theorem blLoadBin_eq (passes : Nat) (init : flash.imageInit = true)
    (enabled : flash.otaAddr ≠ imageInvalidAddr) :
    blLoadBin flash passes =
      tryLoad flash passes imageSeqNum (firstSeq flash) [] := by
  unfold blLoadBin
  rw [init, if_neg (by decide), if_neg enabled]
  rfl

/-- Without an update area sequence 0 is loaded, whatever is configured. -/
theorem blLoadBin_disabled (passes : Nat) (init : flash.imageInit = true)
    (disabled : flash.otaAddr = imageInvalidAddr) :
    blLoadBin flash passes =
      (loadApp flash passes 0).map
        fun entry => { entry, selected := [0], written := [] } := by
  unfold blLoadBin
  rw [init, if_neg (by decide), if_pos disabled]

theorem cfgSeq_le (names : NamesImage flash) :
    (cfgSeq flash).toNat ≤ imageSeqNum := by
  unfold cfgSeq
  split
  · rename_i cfg readable
    split
    · rename_i verified
      exact names cfg readable verified
    · decide
  · decide

/-- Only a verified configuration names a sequence below the number. -/
theorem cfg_of_cfgSeq (seq : ImageSeq) (same : cfgSeq flash = seq)
    (below : seq.toNat < imageSeqNum) :
    flash.cfg = some { seq, state := .verified } := by
  have none : BitVec.ofNat 8 imageSeqNum ≠ seq := by
    rintro rfl
    exact absurd below (by decide)
  unfold cfgSeq at same
  split at same
  · rename_i cfg readable
    split at same
    · rename_i verified
      rw [readable, ← same, ← verified]
    · exact absurd same none
  · exact absurd same none

theorem firstSeq_unusable
    (unusable : ∀ cfg, flash.cfg = some cfg → cfg.state ≠ .verified) :
    firstSeq flash = 0 := by
  apply if_pos
  unfold cfgSeq
  split
  · rename_i cfg readable
    exact if_neg (unusable cfg readable)
  · rfl

theorem firstSeq_order (names : NamesImage flash) :
    (firstSeq flash).toNat < imageSeqNum ∧
      order flash = ringFrom imageSeqNum (firstSeq flash) := by
  have bound := cfgSeq_le flash names
  unfold firstSeq order
  by_cases none : cfgSeq flash = BitVec.ofNat 8 imageSeqNum
  · rw [if_pos none, none, if_neg (by decide)]
    exact ⟨by decide, rfl⟩
  · have below : (cfgSeq flash).toNat < imageSeqNum := by
      refine Nat.lt_of_le_of_ne bound fun same => none ?_
      exact BitVec.eq_of_toNat_eq same
    rw [if_neg none, if_pos below]
    exact ⟨below, rfl⟩

theorem firstSeq_named (seq : ImageSeq) (named : Named flash seq) :
    cfgSeq flash = seq ∧ firstSeq flash = seq := by
  have same : cfgSeq flash = seq := by
    unfold cfgSeq
    rw [named.1]
    exact if_pos rfl
  refine ⟨same, ?_⟩
  unfold firstSeq
  rw [same, if_neg]
  rintro rfl
  exact absurd named.2.1 (by decide)

/-- A configuration that names no image from behind the ring is followed, and
everything asked of the selection holds. -/
theorem selects_of_names (passes : Nat) (boot : BlBoot)
    (names : NamesImage flash)
    (returned : tryLoad flash passes imageSeqNum (firstSeq flash) [] =
      some boot) : Selects flash boot := by
  obtain ⟨below, order⟩ := firstSeq_order flash names
  rcases tryLoad_cases flash passes imageSeqNum (firstSeq flash) [] boot
    returned with ⟨before, seq, after, entry, ring, tried, loaded, valid,
      rfl⟩ | ⟨tried, rfl⟩
  · have members : ∀ other ∈ before ++ [seq], other.toNat < imageSeqNum := by
      intro other member
      apply ringFrom_lt imageSeqNum (firstSeq flash) other below
      rw [ring]
      rcases List.mem_append.mp member with early | last
      · exact List.mem_append_left _ early
      · rw [List.mem_singleton.mp last]
        exact List.mem_append_right _ List.mem_cons_self
    have small := members seq (List.mem_append_right _ List.mem_cons_self)
    have boots := (bootable_iff flash passes seq entry loaded).mpr
      ⟨small, valid⟩
    have fails : ∀ other ∈ before, ¬ Bootable flash other := by
      intro other early bootable
      exact ((bootable_iff flash passes other _ (tried other early)).mp
        bootable).2 rfl
    have last : (before ++ [seq]).getLast? = some seq :=
      List.getLast?_concat ..
    refine ⟨members, fun _ => valid, ?_, ?_, ?_⟩
    · rintro named ⟨cfg, bootable⟩
      obtain ⟨same, first⟩ := firstSeq_named flash named ⟨cfg, bootable⟩
      rw [first] at ring
      cases before with
      | nil =>
          have head : named = seq := (List.cons.inj ring).1
          rw [head] at same
          rw [same, head]
          exact ⟨last, if_neg (not_not_intro rfl)⟩
      | cons head tail =>
          have front : named = head := (List.cons.inj ring).1
          exact absurd (front ▸ bootable) (fails head List.mem_cons_self)
    · intro unnamed _
      refine ⟨seq, ⟨before, after, order.trans ring, boots, fails⟩, last, ?_⟩
      apply if_pos
      intro same
      exact unnamed seq ⟨cfg_of_cfgSeq flash seq same.symm small, boots⟩
    · intro _
      exact ⟨seq, last, entry_loadApp flash passes seq entry loaded valid⟩
  · have none : ∀ seq, ¬ Bootable flash seq := by
      intro seq bootable
      have member := mem_ring (firstSeq flash) seq below bootable.1
      exact ((bootable_iff flash passes seq _ (tried seq member)).mp
        bootable).2 rfl
    refine ⟨?_, ?_, ?_, ?_, ?_⟩
    · intro seq member
      exact ringFrom_lt imageSeqNum (firstSeq flash) seq below member
    · rintro ⟨seq, bootable⟩
      exact absurd bootable (none seq)
    · rintro seq ⟨_, bootable⟩
      exact absurd bootable (none seq)
    · intro _ valid
      exact absurd rfl valid
    · intro valid
      exact absurd rfl valid

/-- No two sequences of a list are both the first with a property. -/
theorem first_unique (property : ImageSeq → Prop)
    (before before' after after' : List ImageSeq) (seq seq' : ImageSeq)
    (same : before ++ seq :: after = before' ++ seq' :: after')
    (holds : property seq) (holds' : property seq')
    (fails : ∀ other ∈ before, ¬ property other)
    (fails' : ∀ other ∈ before', ¬ property other) : seq = seq' := by
  induction before generalizing before' with
  | nil =>
      cases before' with
      | nil => exact (List.cons.inj same).1
      | cons head tail =>
          have front : seq = head := (List.cons.inj same).1
          exact absurd (front ▸ holds) (fails' head List.mem_cons_self)
  | cons head tail ih =>
      cases before' with
      | nil =>
          have front : head = seq' := (List.cons.inj same).1
          exact absurd holds' (front ▸ fails head List.mem_cons_self)
      | cons head' tail' =>
          exact ih tail' (List.cons.inj same).2
            (fun other member => fails other (List.mem_cons_of_mem _ member))
            (fun other member => fails' other (List.mem_cons_of_mem _ member))

theorem firstBootable_unique (seq other : ImageSeq)
    (first : FirstBootable flash seq) (second : FirstBootable flash other) :
    seq = other := by
  obtain ⟨before, after, order, bootable, fails⟩ := first
  obtain ⟨before', after', order', bootable', fails'⟩ := second
  exact first_unique (Bootable flash) before before' after after' seq other
    (order.symm.trans order') bootable bootable' fails fails'

theorem order_firstSeq (names : NamesImage flash) :
    ∃ after, order flash = firstSeq flash :: after :=
  ⟨_, (firstSeq_order flash names).2⟩

theorem firstBootable_firstSeq (names : NamesImage flash)
    (bootable : Bootable flash (firstSeq flash)) :
    FirstBootable flash (firstSeq flash) := by
  obtain ⟨after, order⟩ := order_firstSeq flash names
  exact ⟨[], after, order, bootable, fun other none => (by cases none)⟩

theorem selected_firstBootable (passes : Nat) (boot : BlBoot)
    (init : flash.imageInit = true) (enabled : flash.otaAddr ≠ imageInvalidAddr)
    (names : NamesImage flash)
    (returned : blLoadBin flash passes = some boot) :
    ((∃ seq, Bootable flash seq) → boot.entry ≠ blInvalidAppEntry) ∧
      (boot.entry ≠ blInvalidAppEntry →
        ∃ seq, boot.selected.getLast? = some seq ∧ FirstBootable flash seq) := by
  rw [blLoadBin_eq flash passes init enabled] at returned
  have selects := selects_of_names flash passes boot names returned
  refine ⟨selects.boots, fun valid => ?_⟩
  by_cases isNamed : ∃ seq, Named flash seq
  · obtain ⟨seq, named⟩ := isNamed
    have first := (firstSeq_named flash seq named).2
    refine ⟨seq, (selects.named seq named).1, ?_⟩
    rw [← first]
    apply firstBootable_firstSeq flash names
    rw [first]
    exact named.2
  · obtain ⟨seq, first, last, _⟩ := selects.otherwise
      (fun seq named => isNamed ⟨seq, named⟩) valid
    exact ⟨seq, last, first⟩

theorem firstSeq_selected (passes : Nat) (boot : BlBoot)
    (returned : tryLoad flash passes imageSeqNum (firstSeq flash) [] =
      some boot) : firstSeq flash ∈ boot.selected := by
  rcases tryLoad_cases flash passes imageSeqNum (firstSeq flash) [] boot
    returned with ⟨before, seq, after, entry, ring, _, _, _, rfl⟩ | ⟨_, rfl⟩
  · cases before with
    | nil =>
        have head : firstSeq flash = seq := (List.cons.inj ring).1
        rw [head]
        exact List.mem_cons_self
    | cons head tail =>
        have front : firstSeq flash = head := (List.cons.inj ring).1
        rw [front]
        exact List.mem_cons_self
  · exact List.mem_cons_self

theorem tryLoad_returns
    (ends : ∀ seq, ∃ passes, loadApp flash passes seq ≠ none)
    (tries : Nat) (first : ImageSeq) (selected : List ImageSeq) :
    ∃ passes, ∀ more,
      tryLoad flash (passes + more) tries first selected ≠ none := by
  induction tries generalizing first selected with
  | zero => exact ⟨0, fun _ done => by cases done⟩
  | succ tries ih =>
      obtain ⟨passes, finished⟩ := ends first
      obtain ⟨entry, loaded⟩ := Option.ne_none_iff_exists'.mp finished
      obtain ⟨others, later⟩ := ih (nextSeq first) (selected ++ [first])
      refine ⟨passes + others, fun more => ?_⟩
      have same : loadApp flash (passes + others + more) first =
          some entry := by
        rw [Nat.add_assoc]
        exact loadApp_stable flash passes _ first entry loaded
      unfold tryLoad
      rw [same]
      change (if entry ≠ blInvalidAppEntry then _ else _) ≠ none
      split
      · intro done
        cases done
      · rw [Nat.add_comm passes, Nat.add_assoc]
        exact later _

/-- With updates enabled the bootloader comes to an end if its loads do, and
what it does then is what is asked of it exactly if no verified configuration
names a sequence behind the last. -/
theorem selects_iff (init : flash.imageInit = true)
    (enabled : flash.otaAddr ≠ imageInvalidAddr) :
    ((∀ seq, ∃ passes, loadApp flash passes seq ≠ none) →
        ∃ passes, blLoadBin flash passes ≠ none) ∧
      ∀ passes boot, blLoadBin flash passes = some boot →
        (Selects flash boot ↔ NamesImage flash) := by
  constructor
  · intro ends
    obtain ⟨passes, returns⟩ :=
      tryLoad_returns flash ends imageSeqNum (firstSeq flash) []
    refine ⟨passes, ?_⟩
    rw [blLoadBin_eq flash passes init enabled]
    exact returns 0
  · intro passes boot returned
    rw [blLoadBin_eq flash passes init enabled] at returned
    constructor
    · intro selects cfg readable verified
      have selected := firstSeq_selected flash passes boot returned
      have below := selects.below _ selected
      have same : cfgSeq flash = cfg.seq := by
        unfold cfgSeq
        rw [readable]
        exact if_pos verified
      unfold firstSeq at below
      rw [same] at below
      split at below
      · rename_i none
        rw [none]
        decide
      · exact Nat.le_of_lt below
    · intro names
      exact selects_of_names flash passes boot names returned

/-- An image at every sequence, and a verified configuration. -/
def everyImage (seq : ImageSeq) : BlFlash Unit :=
  { imageInit := true
    otaAddr := 0x100000
    running := fun _ => zeroSection 0x100 4
    ramBase := 0x200000
    cfg := some { seq, state := .verified } }

theorem everyImage_selects :
    ((∀ seq, ∃ passes, loadApp (everyImage 1) passes seq ≠ none) →
        ∃ passes, blLoadBin (everyImage 1) passes ≠ none) ∧
      ∀ passes boot, blLoadBin (everyImage 1) passes = some boot →
        (Selects (everyImage 1) boot ↔ NamesImage (everyImage 1)) :=
  selects_iff (everyImage 1) rfl (by decide)

/-- A configuration that names sequence 5 selects it. -/
theorem fifthSequence_selected :
    ∃ boot, blLoadBin (everyImage 5) 0 = some boot ∧
      ¬ Selects (everyImage 5) boot := by
  refine ⟨{ entry := 0x100, selected := [5], written := [] }, rfl, ?_⟩
  intro selects
  exact absurd (selects.below 5 List.mem_cons_self) (by decide)

end XR872.Bootloader
