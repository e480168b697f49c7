/-
A power loss at any point of an update.

The bootloader checks the application section only, and follows the
configuration. A download erases the other slot and leaves the configuration as
it is: what boots next is complete as long as the configuration does not lead
to the slot that is written.

A call that is cut is one whose devices answer so that nothing comes behind:
the turns end, or the last erase, write or `image_set_cfg` is not done.
-/

import XR872.Ota.Commit

namespace XR872.Ota

open BitView
open Bootloader
open Images
open Runs

structure BlDevice (σ : Type) where
  imageInit : Bool
  otaAddr : BitVec 32
  malloc : Bool
  xz : XzDec σ
  ramBase : BitVec 32
  rom : ImageSeq → FlashMem → ImageRom

/-- The configuration behind a boot, whatever became of its `image_set_cfg`. -/
def cfgBehindBoot (boot : BlBoot) (answer : CfgAnswer)
    (cfg : Option ImageCfg) : Option ImageCfg :=
  boot.written.foldl (fun cfg written => imageSetCfg answer written cfg) cfg

section

variable {σ : Type} (device : BlDevice σ)

/-- What the bootloader finds. -/
def BlDevice.flash (mem : FlashMem) (cfg : Option ImageCfg) : BlFlash σ :=
  { imageInit := device.imageInit
    otaAddr := device.otaAddr
    running := fun seq =>
      { rom := device.rom seq mem, malloc := device.malloc, xz := device.xz }
    ramBase := device.ramBase
    cfg }

variable (platform : OtaPlatform)

def otherSlot : FlashRange :=
  slotRange platform.iop (otaGetUpdateSeq (some platform.iop))

def SameElsewhere (before after : FlashMem) : Prop :=
  ∀ flash address, ¬ (otherSlot platform).Holds flash address →
    after flash address = before flash address

/-- At the running sequence the image functions read nothing of the other
slot. -/
structure ReadsApart : Prop where
  rom : ∀ before after, SameElsewhere platform before after →
    device.rom platform.iop.runningSeq after =
      device.rom platform.iop.runningSeq before
  sections : ∀ before after, SameElsewhere platform before after →
    platform.check platform.iop.runningSeq after =
      platform.check platform.iop.runningSeq before

/-- What boots is complete: the image that was running, or one for which
`ota_get_image` has returned `OTA_STATUS_OK`. -/
structure BootsComplete (before : FlashMem) (state : OtaState)
    (boot : BlBoot) : Prop where
  boots : boot.entry ≠ blInvalidAppEntry
  complete : ∃ seq, boot.selected.getLast? = some seq ∧
    platform.check seq state.mem = true ∧
    (seq = platform.iop.runningSeq ∧ SameElsewhere platform before state.mem ∨
      seq = otaGetUpdateSeq (some platform.iop) ∧
        ∃ result, state.written = some result ∧ result.status = .ok ∧
          result.mem = state.mem)

/-- If its loads come to an end so does the bootloader, and whenever it does it
has booted a complete image. -/
def Survives (before : FlashMem) (state : OtaState) : Prop :=
  ((∀ seq, ∃ passes,
      loadApp (device.flash state.mem state.cfg) passes seq ≠ none) →
    ∃ passes, blLoadBin (device.flash state.mem state.cfg) passes ≠ none) ∧
  ∀ passes boot,
    blLoadBin (device.flash state.mem state.cfg) passes = some boot →
      BootsComplete platform before state boot

/-- A download begins only while the configuration leads to the running
sequence first, and no check that passes is asked for behind a failed one. -/
def KeepsBootable (state : OtaState) (call : OtaCall) : Prop :=
  CommitsFresh platform state call ∧
    ∀ protocol env, call = .getImage protocol (some env) → protocol ≠ .other →
      (otaGetUpdateSeq (some platform.iop)).toNat < imageSeqNum →
        firstSeq (device.flash state.mem state.cfg) = platform.iop.runningSeq

/-! ### The running image stays -/

structure Kept (before : FlashMem) (state : OtaState) : Prop where
  linked : Linked platform state
  elsewhere : SameElsewhere platform before state.mem
  names : NamesImage (device.flash state.mem state.cfg)
  first : device.otaAddr ≠ imageInvalidAddr →
    FirstBootable (device.flash state.mem state.cfg) platform.iop.runningSeq ∨
      (otaGetUpdateSeq (some platform.iop)).toNat < imageSeqNum ∧
        ∃ result, state.written = some result ∧ result.status = .ok

variable {device platform}

theorem ReadsApart.bootable (apart : ReadsApart device platform)
    {before after : FlashMem} (same : SameElsewhere platform before after)
    (cfg cfg' : Option ImageCfg)
    (bootable : Bootable (device.flash before cfg) platform.iop.runningSeq) :
    Bootable (device.flash after cfg') platform.iop.runningSeq := by
  obtain ⟨below, passes, entry, loaded, valid⟩ := bootable
  refine ⟨below, passes, entry, ?_, valid⟩
  unfold loadApp at loaded ⊢
  rw [← loaded]
  unfold BlDevice.flash
  dsimp only
  rw [apart.rom before after same]

theorem running_or_other
    (below : (otaGetUpdateSeq (some platform.iop)).toNat < imageSeqNum)
    (seq : ImageSeq) (small : seq.toNat < imageSeqNum) :
    seq = platform.iop.runningSeq ∨
      seq = otaGetUpdateSeq (some platform.iop) := by
  obtain ⟨_, _, policy, _⟩ := otaGetUpdateSeq_policy platform.iop below
  have running : platform.iop.runningSeq.toNat < imageSeqNum :=
    (List.getElem?_eq_some_iff.mp policy).1
  rcases seq_cases _ running with isRunning | isRunning <;>
    rw [isRunning] at policy ⊢ <;>
    rw [← Option.some.inj policy] <;>
    rcases seq_cases seq small with rfl | rfl <;> decide

theorem Kept.complete {before : FlashMem} {state : OtaState}
    (kept : Kept device platform before state)
    (apart : ReadsApart device platform)
    (complete : platform.check platform.iop.runningSeq before = true) :
    platform.check platform.iop.runningSeq state.mem = true := by
  rw [apart.sections before state.mem kept.elsewhere]
  exact complete

theorem Kept.survives_disabled {before : FlashMem} {state : OtaState}
    (kept : Kept device platform before state)
    (init : device.imageInit = true)
    (running : platform.check platform.iop.runningSeq state.mem = true)
    (bootable : Bootable (device.flash state.mem state.cfg)
      platform.iop.runningSeq)
    (disabled : device.otaAddr = imageInvalidAddr)
    (only : platform.iop.runningSeq = 0) :
    Survives device platform before state := by
  have plain := fun passes => blLoadBin_disabled
    (device.flash state.mem state.cfg) passes init disabled
  constructor
  · intro ends
    obtain ⟨passes, ended⟩ := ends 0
    refine ⟨passes, ?_⟩
    rw [plain]
    intro none
    exact ended (Option.map_eq_none_iff.mp none)
  · intro passes boot returned
    rw [plain] at returned
    obtain ⟨entry, loaded, rfl⟩ := Option.map_eq_some_iff.mp returned
    rw [only] at bootable running
    exact ⟨((bootable_iff _ passes 0 entry loaded).mp bootable).2, 0, rfl,
      running, .inl ⟨only.symm, kept.elsewhere⟩⟩

theorem Kept.survives_enabled {before : FlashMem} {state : OtaState}
    (kept : Kept device platform before state)
    (init : device.imageInit = true)
    (running : platform.check platform.iop.runningSeq state.mem = true)
    (bootable : Bootable (device.flash state.mem state.cfg)
      platform.iop.runningSeq)
    (enabled : device.otaAddr ≠ imageInvalidAddr) :
    Survives device platform before state := by
  constructor
  · intro ends
    obtain ⟨passes, returns⟩ := tryLoad_returns
      (device.flash state.mem state.cfg) ends imageSeqNum
      (firstSeq (device.flash state.mem state.cfg)) []
    refine ⟨passes, ?_⟩
    rw [blLoadBin_eq _ passes init enabled]
    exact returns 0
  · intro passes boot returned
    obtain ⟨boots, selected⟩ := selected_firstBootable _ passes boot init
      enabled kept.names returned
    have valid := boots ⟨_, bootable⟩
    obtain ⟨seq, last, first⟩ := selected valid
    refine ⟨valid, seq, last, ?_⟩
    rcases kept.first enabled with isFirst | ⟨below, result, written, ok⟩
    · rw [firstBootable_unique _ seq _ first isFirst]
      exact ⟨running, .inl ⟨rfl, kept.elsewhere⟩⟩
    · obtain ⟨sameMem, image⟩ := kept.linked.written result written
      obtain ⟨_, _, _, bootableSeq, _⟩ := first
      rcases running_or_other below seq bootableSeq.1 with rfl | rfl
      · exact ⟨running, .inl ⟨rfl, kept.elsewhere⟩⟩
      · obtain ⟨_, _, sections⟩ := image ok
        rw [sameMem] at sections
        exact ⟨sections, .inr ⟨rfl, result, written, ok, sameMem⟩⟩

/-! ### Steps -/

theorem Kept.still {before : FlashMem} {state next : OtaState}
    (kept : Kept device platform before state) (linked : Linked platform next)
    (mem : next.mem = state.mem) (cfg : next.cfg = state.cfg)
    (written : next.written = state.written) :
    Kept device platform before next where
  linked
  elsewhere := by
    rw [mem]
    exact kept.elsewhere
  names := by
    rw [mem, cfg]
    exact kept.names
  first := by
    rw [mem, cfg, written]
    exact kept.first

theorem Kept.download {before : FlashMem} {state : OtaState}
    (kept : Kept device platform before state)
    (apart : ReadsApart device platform) (cfg : Option ImageCfg)
    (bootable : Bootable (device.flash before cfg) platform.iop.runningSeq)
    (below : (otaGetUpdateSeq (some platform.iop)).toNat < imageSeqNum)
    (env : OtaEnv) (status : OtaStatus)
    (linked : Linked platform {
      behindDownload platform (downloadOf platform env state.mem) state with
      last := some status })
    (first : firstSeq (device.flash state.mem state.cfg) =
      platform.iop.runningSeq) :
    Kept device platform before {
      behindDownload platform (downloadOf platform env state.mem) state with
      last := some status } := by
  have sized := (otaGetUpdateSeq_policy platform.iop below).1
  have inSlot := otaUpdateImageProcess_inSlot platform.iop
    (platform.mSize (otherSlot platform).flash) env
    (otaGetUpdateSeq (some platform.iop)) 0 state.mem platform.check (by omega)
  have elsewhere : SameElsewhere platform before
      (downloadOf platform env state.mem).mem := by
    intro flash address outside
    exact (inSlot.outside flash address outside).trans
      (kept.elsewhere flash address outside)
  have boots := apart.bootable elsewhere cfg state.cfg bootable
  refine ⟨linked, elsewhere, kept.names, fun _ => .inl ?_⟩
  have isFirst := firstBootable_firstSeq
    (device.flash (downloadOf platform env state.mem).mem state.cfg) kept.names
  change firstSeq (device.flash (downloadOf platform env state.mem).mem
    state.cfg) = _ at first
  rw [first] at isFirst
  exact isFirst boots

theorem imageSetCfg_names (answer : CfgAnswer) (cfg : ImageCfg)
    (below : cfg.seq.toNat < imageSeqNum) (old : Option ImageCfg)
    (mem : FlashMem) (names : NamesImage (device.flash mem old)) :
    NamesImage (device.flash mem (imageSetCfg answer cfg old)) := by
  cases answer with
  | kept => exact names
  | done =>
      intro written same _
      cases same
      exact Nat.le_of_lt below
  | lost left =>
      intro written same verified
      exact absurd verified (left.property written same)

theorem otaStep_kept (before : FlashMem) (apart : ReadsApart device platform)
    (cfg : Option ImageCfg)
    (bootable : Bootable (device.flash before cfg) platform.iop.runningSeq)
    (state : OtaState) (call : OtaCall)
    (kept : Kept device platform before state)
    (keeps : KeepsBootable device platform state call) :
    Kept device platform before (otaStep platform state call) := by
  have linked := otaStep_linked platform state call kept.linked
  cases call with
  | init => exact kept.still linked rfl rfl rfl
  | deinit => exact kept.still linked rfl rfl rfl
  | getVerifyData env => exact kept.still linked rfl rfl rfl
  | getImage protocol url =>
      rw [otaStep_getImage] at linked ⊢
      rcases otaGetImage_cases platform protocol url state with
        same | same | ⟨env, rfl, known, below, same⟩
      · rw [same] at linked ⊢
        exact kept.still linked rfl rfl rfl
      · rw [same] at linked ⊢
        exact kept.still linked rfl rfl rfl
      · rw [same] at linked ⊢
        exact kept.download apart cfg bootable below env _ linked
          (keeps.2 protocol env rfl known below)
  | verifyImage verify value env answer =>
      change Linked platform
        (otaVerifyImage platform verify value env answer state).state at linked
      change Kept device platform before
        (otaVerifyImage platform verify value env answer state).state
      rcases otaVerifyImage_cases platform verify value env answer state
        kept.linked.bound with ⟨_, same, _⟩ |
          ⟨new, isNew, _, same, given, received, below, passes⟩
      · rw [same]
        exact kept
      · have ok := kept.linked.ok_of_fresh platform verify value env answer
          keeps.1 received given passes
        obtain ⟨result, written, success, _⟩ := kept.linked.succeeded ok
        rw [same] at linked ⊢
        subst isNew
        exact {
          linked
          elsewhere := kept.elsewhere
          names := imageSetCfg_names answer _ below state.cfg state.mem
            kept.names
          first := fun _ => .inr ⟨below, result, written, success⟩ }

/-! ### The boot before -/

/-- What is found bootable does not depend on the configuration, and neither
does the order, if it begins with the same sequence. -/
theorem firstBootable_congr (mem : FlashMem) (cfg cfg' : Option ImageCfg)
    (names : NamesImage (device.flash mem cfg))
    (names' : NamesImage (device.flash mem cfg'))
    (same : firstSeq (device.flash mem cfg') = firstSeq (device.flash mem cfg))
    (seq : ImageSeq) (first : FirstBootable (device.flash mem cfg) seq) :
    FirstBootable (device.flash mem cfg') seq := by
  obtain ⟨before, after, ring, bootable, fails⟩ := first
  refine ⟨before, after, ?_, bootable, fails⟩
  rw [(firstSeq_order _ names').2, same, ← (firstSeq_order _ names).2]
  exact ring

theorem unnamed_first (flash : BlFlash σ) (names : NamesImage flash)
    (seq : ImageSeq) (first : FirstBootable flash seq)
    (unnamed : ¬ Named flash seq) : seq = 0 ∨ firstSeq flash = 0 := by
  obtain ⟨_, _, _, bootable, _⟩ := first
  rcases seq_cases (firstSeq flash) (firstSeq_order flash names).1 with
    zero | one
  · exact .inr zero
  · rcases seq_cases seq bootable.1 with rfl | rfl
    · exact .inl rfl
    · refine absurd ⟨?_, bootable⟩ unnamed
      apply cfg_of_cfgSeq flash 1 ?_ (by decide)
      unfold firstSeq at one
      split at one
      · cases one
      · exact one

/-- Whatever becomes of the configuration that names the image that has booted
without being named, the image stays the first. -/
theorem imageSetCfg_first (mem : FlashMem) (cfg : Option ImageCfg)
    (names : NamesImage (device.flash mem cfg)) (seq : ImageSeq)
    (first : FirstBootable (device.flash mem cfg) seq)
    (unnamed : ¬ Named (device.flash mem cfg) seq) (answer : CfgAnswer)
    (names' : NamesImage (device.flash mem
      (imageSetCfg answer { seq, state := .verified } cfg))) :
    FirstBootable (device.flash mem
      (imageSetCfg answer { seq, state := .verified } cfg)) seq := by
  have bootable : Bootable (device.flash mem cfg) seq := by
    obtain ⟨_, _, _, bootable, _⟩ := first
    exact bootable
  have begins := firstBootable_firstSeq _ names'
  cases answer with
  | kept => exact first
  | done =>
      have named : Named (device.flash mem (imageSetCfg .done
          { seq, state := .verified } cfg)) seq := ⟨rfl, bootable⟩
      rw [(firstSeq_named _ seq named).2] at begins
      exact begins bootable
  | lost left =>
      have zero := firstSeq_unusable (device.flash mem left.val) left.property
      rcases unnamed_first _ names seq first unnamed with rfl | before
      · change Bootable (device.flash mem left.val)
          (firstSeq (device.flash mem left.val)) →
            FirstBootable (device.flash mem left.val)
              (firstSeq (device.flash mem left.val)) at begins
        rw [zero] at begins
        exact begins bootable
      · exact firstBootable_congr mem cfg left.val names names'
          (zero.trans before.symm) seq first

/-- Behind a boot, whatever became of its `image_set_cfg`, the next one finds
the same image first. -/
theorem booted_first (mem : FlashMem) (cfg : Option ImageCfg) (passes : Nat)
    (boot : BlBoot) (init : device.imageInit = true)
    (enabled : device.otaAddr ≠ imageInvalidAddr)
    (names : NamesImage (device.flash mem cfg))
    (booted : blLoadBin (device.flash mem cfg) passes = some boot)
    (valid : boot.entry ≠ blInvalidAppEntry) (seq : ImageSeq)
    (last : boot.selected.getLast? = some seq) (answer : CfgAnswer) :
    NamesImage (device.flash mem (cfgBehindBoot boot answer cfg)) ∧
      FirstBootable (device.flash mem (cfgBehindBoot boot answer cfg)) seq := by
  obtain ⟨first, isLast, isFirst⟩ :=
    (selected_firstBootable _ passes boot init enabled names booted).2 valid
  rw [last] at isLast
  cases isLast
  rw [blLoadBin_eq _ passes init enabled] at booted
  have selects := selects_of_names _ passes boot names booted
  unfold cfgBehindBoot
  by_cases named : Named (device.flash mem cfg) seq
  · rw [(selects.named seq named).2]
    exact ⟨names, isFirst⟩
  · have none : ∀ other, ¬ Named (device.flash mem cfg) other := by
      intro other isNamed
      have same := (selects.named other isNamed).1
      rw [last] at same
      cases same
      exact named isNamed
    obtain ⟨other, ⟨_, _, _, bootable, _⟩, same, written⟩ :=
      selects.otherwise none valid
    rw [last] at same
    cases same
    have names' := imageSetCfg_names answer { seq, state := .verified }
      bootable.1 cfg mem names
    rw [written]
    exact ⟨names', imageSetCfg_first mem cfg names seq isFirst named answer
      names'⟩

theorem booted_facts (mem : FlashMem) (cfg : Option ImageCfg) (passes : Nat)
    (boot : BlBoot) (names : NamesImage (device.flash mem cfg))
    (booted : blLoadBin (device.flash mem cfg) passes = some boot)
    (valid : boot.entry ≠ blInvalidAppEntry) (seq : ImageSeq)
    (last : boot.selected.getLast? = some seq) :
    device.imageInit = true ∧ Bootable (device.flash mem cfg) seq ∧
      (device.otaAddr = imageInvalidAddr → seq = 0 ∧ boot.written = []) := by
  have init : device.imageInit = true := by
    cases failed : device.imageInit with
    | true => rfl
    | false =>
        unfold blLoadBin at booted
        change (if !device.imageInit then _ else _) = _ at booted
        rw [failed, if_pos (by decide)] at booted
        cases booted
        exact absurd rfl valid
  by_cases enabled : device.otaAddr = imageInvalidAddr
  · rw [blLoadBin_disabled _ passes init enabled] at booted
    obtain ⟨entry, loaded, rfl⟩ := Option.map_eq_some_iff.mp booted
    have zero : (0 : ImageSeq) = seq := Option.some.inj last
    rw [← zero]
    exact ⟨init, ⟨by decide, passes, entry, loaded, valid⟩,
      fun _ => ⟨rfl, rfl⟩⟩
  · obtain ⟨first, isLast, _, _, _, bootable, _⟩ :=
      (selected_firstBootable _ passes boot init enabled names booted).2 valid
    rw [last] at isLast
    cases isLast
    exact ⟨init, bootable, fun isInvalid => absurd isInvalid enabled⟩

/-- Behind a boot of a complete image, whatever became of the bootloader's own
`image_set_cfg`, every run whose downloads begin while the running sequence is
tried first, and whose commits are fresh, can be cut at any point. -/
theorem survives_powerLoss (apart : ReadsApart device platform)
    (mem : FlashMem) (cfg : Option ImageCfg)
    (names : NamesImage (device.flash mem cfg)) (passes : Nat) (boot : BlBoot)
    (booted : blLoadBin (device.flash mem cfg) passes = some boot)
    (valid : boot.entry ≠ blInvalidAppEntry)
    (last : boot.selected.getLast? = some platform.iop.runningSeq)
    (complete : platform.check platform.iop.runningSeq mem = true)
    (answer : CfgAnswer) (calls : List OtaCall)
    (along : Along (otaStep platform) (KeepsBootable device platform)
      (.start mem (cfgBehindBoot boot answer cfg)) calls) :
    Always (otaStep platform) (Survives device platform mem)
      (.start mem (cfgBehindBoot boot answer cfg)) calls := by
  obtain ⟨init, bootable, only⟩ := booted_facts mem cfg passes boot names booted
    valid platform.iop.runningSeq last
  have start : Kept device platform mem
      (.start mem (cfgBehindBoot boot answer cfg)) := by
    refine ⟨start_linked platform mem _, fun _ _ _ => rfl, ?_, ?_⟩
    · by_cases enabled : device.otaAddr = imageInvalidAddr
      · unfold cfgBehindBoot
        rw [(only enabled).2]
        exact names
      · exact (booted_first mem cfg passes boot init enabled names booted valid
          _ last answer).1
    · intro enabled
      exact .inl (booted_first mem cfg passes boot init enabled names booted
        valid _ last answer).2
  have always := always_of_along (Kept device platform mem)
    (KeepsBootable device platform)
    (otaStep_kept mem apart cfg bootable) _ start calls along
  refine always_imp (Kept device platform mem) (Survives device platform mem)
    (fun state kept => ?_) _ calls always
  have running := kept.complete apart complete
  have boots := apart.bootable kept.elsewhere cfg state.cfg bootable
  by_cases enabled : device.otaAddr = imageInvalidAddr
  · exact kept.survives_disabled init running boots enabled (only enabled).1
  · exact kept.survives_enabled init running boots enabled

end

/-- An application section that begins with 1, in an image that is complete if
2 comes next. -/
def markedPlatform : OtaPlatform :=
  { smallPlatform with
    check := fun seq mem =>
      mem 0 (4 + 4 * seq.toNat) = 1 && mem 0 (5 + 4 * seq.toNat) = 2 }

def markedDevice : BlDevice Unit where
  imageInit := true
  otaAddr := 0x100000
  malloc := true
  xz := (zeroSection 0x100 4).xz
  ramBase := 0x200000
  rom := fun seq mem =>
    if mem 0 (4 + 4 * seq.toNat) = 1 then (zeroSection 0x100 4).rom
    else { (zeroSection 0x100 4).rom with headerRead := fun _ => 0 }

def firstImage : FlashMem := fun _ address =>
  if address = 4 then 1 else if address = 5 then 2 else 0

def imageUpdate (pieces : List OtaAnswer) : OtaEnv where
  stream := [0, 1, 2]
  erase := { done := true, left := [255, 255] }
  malloc := true
  init := .ok
  flashOpen := true
  turns := pieces.map fun get => { get, write := { done := true, left := [] } }

def firstBoot : BlBoot := { entry := 0x100, selected := [0], written := [] }

def wholeUpdate : List OtaCall :=
  [.getImage .http (some (imageUpdate [.piece 1 false, .piece 2 true])),
    .verifyImage .none none noDigest .done]

theorem markedDevice_apart : ReadsApart markedDevice markedPlatform := by
  have same : ∀ before after,
      SameElsewhere markedPlatform before after →
        after 0 4 = before 0 4 ∧ after 0 5 = before 0 5 := by
    intro before after elsewhere
    refine ⟨elsewhere 0 4 ?_, elsewhere 0 5 ?_⟩
    · rintro ⟨_, above, _⟩
      exact absurd above (by decide)
    · rintro ⟨_, above, _⟩
      exact absurd above (by decide)
  constructor
  · intro before after elsewhere
    change (if after 0 4 = 1 then _ else _) = if before 0 4 = 1 then _ else _
    rw [(same before after elsewhere).1]
  · intro before after elsewhere
    change (decide (after 0 4 = 1) && decide (after 0 5 = 2)) =
      (decide (before 0 4 = 1) && decide (before 0 5 = 2))
    rw [(same before after elsewhere).1, (same before after elsewhere).2]

theorem wholeUpdate_survives :
    Always (otaStep markedPlatform)
      (Survives markedDevice markedPlatform firstImage)
      (.start firstImage (cfgBehindBoot firstBoot .done
        (some { seq := 0, state := .verified }))) wholeUpdate := by
  refine survives_powerLoss markedDevice_apart firstImage
    (some { seq := 0, state := .verified }) ?_ 0 firstBoot rfl (by decide) rfl
    rfl .done wholeUpdate ?_
  · intro cfg same _
    cases same
    decide
  · refine ⟨⟨trivial, fun _ _ _ _ _ => rfl⟩, ⟨nofun, nofun⟩, trivial⟩

/-- A second download is cut before the slot the configuration names is
complete again. -/
theorem secondUpdate_lost :
    blLoadBin (markedDevice.flash firstImage
        (some { seq := 0, state := .verified })) 0 = some firstBoot ∧
      markedPlatform.check 0 firstImage = true ∧
      ¬ Always (otaStep markedPlatform)
        (Survives markedDevice markedPlatform firstImage)
        (.start firstImage (some { seq := 0, state := .verified }))
        (wholeUpdate ++
          [.getImage .http (some (imageUpdate [.piece 1 false,
            .piece 1 false]))]) := by
  refine ⟨rfl, rfl, fun always => ?_⟩
  have last := (always _ List.prefix_rfl).2 0
    { entry := 0x100, selected := [1], written := [] } rfl
  obtain ⟨seq, same, complete, _⟩ := last.complete
  cases same
  cases complete

end XR872.Ota
