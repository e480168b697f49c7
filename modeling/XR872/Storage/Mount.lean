/-
The file system of the memory card.

Mounting creates a card object, opens and scans the card, and registers a file
system object with the FAT driver; unmounting undoes it. The card driver is in
ROM: it is a parameter, known by what its header says of each call. Each of its
calls, the allocation and the creation of the FAT driver's mutex succeed or fail
as they like.
-/

import XR872.Library.Run

namespace XR872.Storage

open Runs

/-- The card driver: what it shows of a card, and what each call makes of the
driver's state when it succeeds and when it fails. -/
structure CardDriver (σ : Type) where
  exists_ : σ → BitVec 8 → Bool
  present : σ → BitVec 8 → Bool
  create : σ → BitVec 8 → Bool → σ
  delete_ : σ → BitVec 8 → Bool → σ
  open_ : σ → BitVec 8 → Bool → σ
  close : σ → BitVec 8 → Bool → σ
  rescan : σ → BitVec 8 → Bool → σ
  deinit : σ → BitVec 8 → Bool → σ

/-- What the header says: create allocates the card object and delete frees it,
no other call does either, a scan that succeeds leaves the card initialised,
and closing a card does not undo that. -/
structure CardDriver.Documented {σ : Type} (driver : CardDriver σ) : Prop where
  created : ∀ cards id, driver.exists_ (driver.create cards id true) id = true
  notCreated : ∀ cards id,
    driver.exists_ (driver.create cards id false) id = driver.exists_ cards id
  deleted : ∀ cards id, driver.exists_ (driver.delete_ cards id true) id = false
  notDeleted : ∀ cards id,
    driver.exists_ (driver.delete_ cards id false) id = driver.exists_ cards id
  opened : ∀ cards id ok,
    driver.exists_ (driver.open_ cards id ok) id = driver.exists_ cards id
  closed : ∀ cards id ok,
    driver.exists_ (driver.close cards id ok) id = driver.exists_ cards id
  scanned : ∀ cards id ok,
    driver.exists_ (driver.rescan cards id ok) id = driver.exists_ cards id
  deinited : ∀ cards id ok,
    driver.exists_ (driver.deinit cards id ok) id = driver.exists_ cards id
  scannedPresent : ∀ cards id, driver.exists_ cards id = true →
    driver.present (driver.rescan cards id true) id = true
  closedPresent : ∀ cards id ok,
    driver.present (driver.close cards id ok) id = driver.present cards id

/-- `fs_ctrl.fs`, the FAT driver's table of one volume and its mutex flag, and
the card driver's state. Beside them stand the card that the file system was
mounted for, and the opens and closes that were made. -/
structure FsCtrl (σ : Type) where
  fs : Option Nat
  fatFs : Option Nat
  ffMutexInit : Bool
  cards : σ
  device : Option (BitVec 8)
  opens : List (BitVec 8)
  closes : List (BitVec 8)

/-! ### The FAT driver -/

/-- With one static mutex there is nothing to delete. -/
def ffDelSyncobj : Bool := true

/-- The static mutex is created once, and counts as created from then on. -/
def ffCreSyncobj {σ : Type} (ctrl : FsCtrl σ) (mutexCreate : Bool) :
    FsCtrl σ × Bool :=
  if ctrl.ffMutexInit then (ctrl, true)
  else ({ ctrl with ffMutexInit := true }, mutexCreate)

/-- `f_mount` without an immediate mount. -/
def fMount {σ : Type} (ctrl : FsCtrl σ) (fs : Option Nat) (mutexCreate : Bool) :
    FsCtrl σ × Bool :=
  if ctrl.fatFs.isSome ∧ ¬ ffDelSyncobj then (ctrl, false)
  else if fs.isSome then
    let (ctrl, created) := ffCreSyncobj ctrl mutexCreate
    if ¬ created then (ctrl, false) else ({ ctrl with fatFs := fs }, true)
  else ({ ctrl with fatFs := fs }, true)

/-! ### Mount and unmount -/

inductive FsMntStatus where
  | mountOk
  | mountFail
  | unmount
deriving DecidableEq, Repr

/-- The state, the return value and the status of the event that is sent. -/
structure FsCtrlEnd (σ : Type) where
  ctrl : FsCtrl σ
  ret : Int
  sent : Option FsMntStatus

/-- How the calls of a mount or unmount end. -/
structure Outcomes where
  create : Bool
  open_ : Bool
  rescan : Bool
  malloc : Option Nat
  mutexCreate : Bool
  deinit : Bool
  close : Bool
  delete_ : Bool
deriving DecidableEq, Repr

section Calls

variable {σ : Type} (driver : CardDriver σ)

def mmcCardOpen (ctrl : FsCtrl σ) (id : BitVec 8) (ok : Bool) : FsCtrl σ :=
  { ctrl with
    cards := driver.open_ ctrl.cards id ok
    opens := if ok then ctrl.opens ++ [id] else ctrl.opens }

def mmcCardClose (ctrl : FsCtrl σ) (id : BitVec 8) (ok : Bool) : FsCtrl σ :=
  { ctrl with
    cards := driver.close ctrl.cards id ok
    closes := ctrl.closes ++ [id] }

def mountFailed (ctrl : FsCtrl σ) : FsCtrlEnd σ :=
  { ctrl := ctrl, ret := -1, sent := some .mountFail }

/-- From the label `err_card` on. -/
def errCard (ctrl : FsCtrl σ) (id : BitVec 8) (outcomes : Outcomes) :
    FsCtrlEnd σ :=
  mountFailed { ctrl with cards := driver.delete_ ctrl.cards id outcomes.delete_ }

/-- From the label `err_fs` on. -/
def errFs (ctrl : FsCtrl σ) (id : BitVec 8) (outcomes : Outcomes) : FsCtrlEnd σ :=
  if driver.present ctrl.cards id then
    errCard driver
      { ctrl with cards := driver.deinit ctrl.cards id outcomes.deinit } id outcomes
  else errCard driver ctrl id outcomes

/-- From the allocation of the file system object on. -/
def mountFs (ctrl : FsCtrl σ) (id : BitVec 8) (outcomes : Outcomes) :
    FsCtrlEnd σ :=
  match outcomes.malloc with
  | none => errFs driver ctrl id outcomes
  | some fs =>
      let (ctrl, ok) := fMount ctrl (some fs) outcomes.mutexCreate
      if ok then
        { ctrl := { ctrl with fs := some fs, device := some id }
          ret := 0
          sent := some .mountOk }
      else errFs driver ctrl id outcomes

def mountCard (ctrl : FsCtrl σ) (id : BitVec 8) (outcomes : Outcomes) :
    FsCtrlEnd σ :=
  if ¬ driver.present ctrl.cards id then
    let ctrl := { ctrl with cards := driver.rescan ctrl.cards id outcomes.rescan }
    if ¬ outcomes.rescan then
      errCard driver (mmcCardClose driver ctrl id outcomes.close) id outcomes
    else mountFs driver (mmcCardClose driver ctrl id outcomes.close) id outcomes
  else mountFs driver (mmcCardClose driver ctrl id outcomes.close) id outcomes

def fsCtrlMount (ctrl : FsCtrl σ) (devId : BitVec 32) (outcomes : Outcomes) :
    FsCtrlEnd σ :=
  let id := devId.setWidth 8
  if ctrl.fs.isSome then { ctrl := ctrl, ret := 0, sent := none }
  else
    let ctrl := { ctrl with cards := driver.create ctrl.cards id outcomes.create }
    if ¬ outcomes.create then mountFailed ctrl
    else
      let ctrl := mmcCardOpen driver ctrl id outcomes.open_
      if ¬ outcomes.open_ then errCard driver ctrl id outcomes
      else mountCard driver ctrl id outcomes

/-- The card of an unmount, once the file system has been dealt with. -/
def unmountCard (ctrl : FsCtrl σ) (id : BitVec 8) (outcomes : Outcomes) :
    FsCtrl σ :=
  let ctrl := mmcCardOpen driver ctrl id outcomes.open_
  if ¬ outcomes.open_ then ctrl
  else
    let ctrl :=
      if driver.present ctrl.cards id then
        { ctrl with cards := driver.deinit ctrl.cards id outcomes.deinit }
      else ctrl
    let ctrl := mmcCardClose driver ctrl id outcomes.close
    { ctrl with cards := driver.delete_ ctrl.cards id outcomes.delete_ }

def fsCtrlUnmount (ctrl : FsCtrl σ) (devId : BitVec 32) (outcomes : Outcomes) :
    FsCtrlEnd σ :=
  let id := devId.setWidth 8
  if ctrl.fs = none then { ctrl := ctrl, ret := 0, sent := none }
  else
    let (ctrl, ok) := fMount ctrl none outcomes.mutexCreate
    let ctrl := if ok then { ctrl with fs := none } else ctrl
    { ctrl := unmountCard driver ctrl id outcomes
      ret := if ok then 0 else -1
      sent := if ok then some .unmount else none }

/-! ### Calls -/

inductive FsCtrlCall where
  | mount (devId : BitVec 32) (outcomes : Outcomes)
  | unmount (devId : BitVec 32) (outcomes : Outcomes)
deriving DecidableEq, Repr

def fsCtrlCall (ctrl : FsCtrl σ) (call : FsCtrlCall) : FsCtrlEnd σ :=
  match call with
  | .mount devId outcomes => fsCtrlMount driver ctrl devId outcomes
  | .unmount devId outcomes => fsCtrlUnmount driver ctrl devId outcomes

def fsCtrlStep (ctrl : FsCtrl σ) (call : FsCtrlCall) : FsCtrl σ :=
  (fsCtrlCall driver ctrl call).ctrl

/-- Nothing is mounted; the card driver may be in any state. -/
def fsCtrlStart (cards : σ) : FsCtrl σ :=
  { fs := none
    fatFs := none
    ffMutexInit := false
    cards := cards
    device := none
    opens := []
    closes := [] }

/-! ### The promise -/

def CardDriver.Usable (cards : σ) (id : BitVec 8) : Prop :=
  driver.exists_ cards id = true ∧ driver.present cards id = true

def Mounted (ctrl : FsCtrl σ) : Prop :=
  ctrl.fatFs.isSome = true ∧
    ∃ id, ctrl.device = some id ∧ driver.Usable ctrl.cards id

/-- What holds after a call. -/
structure MountPromise (ctrl : FsCtrl σ) (call : FsCtrlCall) : Prop where
  mounted : (fsCtrlStep driver ctrl call).fs.isSome = true ↔
    Mounted driver (fsCtrlStep driver ctrl call)
  closed : (fsCtrlStep driver ctrl call).closes = (fsCtrlStep driver ctrl call).opens
  failed : ∀ devId outcomes, call = .mount devId outcomes →
    (fsCtrlCall driver ctrl call).ret = -1 →
      driver.exists_ (fsCtrlStep driver ctrl call).cards (devId.setWidth 8) = false ∧
        (fsCtrlStep driver ctrl call).fatFs = none
  usable : ∀ devId outcomes, call = .mount devId outcomes →
    (fsCtrlCall driver ctrl call).ret = 0 →
      driver.Usable (fsCtrlStep driver ctrl call).cards (devId.setWidth 8)

/-- The state of the cards once a mount has opened its own. -/
def openedCards (cards : σ) (id : BitVec 8) : σ :=
  driver.open_ (driver.create cards id true) id true

/-- Every call after the creation of the card object succeeds. -/
def Completes (ctrl : FsCtrl σ) (id : BitVec 8) (outcomes : Outcomes) : Prop :=
  outcomes.open_ = true ∧
    (driver.present (openedCards driver ctrl.cards id) id = true ∨
      outcomes.rescan = true) ∧
    outcomes.malloc.isSome = true ∧
    (ctrl.ffMutexInit = true ∨ outcomes.mutexCreate = true)

/-- A mount over a mounted file system names its card or another usable one.
Any other mount is not refused the card object because there is one already,
and if it fails later, it can delete the object it has created. -/
def CleanMount (ctrl : FsCtrl σ) : FsCtrlCall → Prop
  | .unmount _ _ => True
  | .mount devId outcomes =>
      if ctrl.fs.isSome then
        ctrl.device = some (devId.setWidth 8) ∨
          driver.Usable ctrl.cards (devId.setWidth 8)
      else if outcomes.create then
        Completes driver ctrl (devId.setWidth 8) outcomes ∨
          outcomes.delete_ = true
      else driver.exists_ ctrl.cards (devId.setWidth 8) = false

end Calls

section Decidable

variable {σ : Type} (driver : CardDriver σ)

instance (cards : σ) (id : BitVec 8) : Decidable (driver.Usable cards id) :=
  inferInstanceAs (Decidable (_ ∧ _))

instance (ctrl : FsCtrl σ) (id : BitVec 8) (outcomes : Outcomes) :
    Decidable (Completes driver ctrl id outcomes) :=
  inferInstanceAs (Decidable (_ ∧ _ ∧ _ ∧ _))

instance (ctrl : FsCtrl σ) (call : FsCtrlCall) :
    Decidable (CleanMount driver ctrl call) :=
  match call with
  | .unmount _ _ => isTrue trivial
  | .mount _ _ => inferInstanceAs (Decidable (ite _ _ _))

end Decidable

section Proofs

variable {σ : Type} {driver : CardDriver σ}

/-! ### The FAT driver's part -/

theorem fMount_none (ctrl : FsCtrl σ) (mutexCreate : Bool) :
    fMount ctrl none mutexCreate = ({ ctrl with fatFs := none }, true) := by
  unfold fMount
  rw [if_neg (fun both => both.2 rfl)]
  rfl

theorem fMount_some (ctrl : FsCtrl σ) (fs : Nat) (mutexCreate : Bool) :
    fMount ctrl (some fs) mutexCreate =
      if ctrl.ffMutexInit = true ∨ mutexCreate = true then
        ({ ctrl with fatFs := some fs, ffMutexInit := true }, true)
      else ({ ctrl with ffMutexInit := true }, false) := by
  obtain ⟨_, fatFs, init, _, _, _, _⟩ := ctrl
  unfold fMount ffCreSyncobj
  rw [if_neg (fun both => both.2 rfl)]
  cases init with
  | true => rfl
  | false =>
      cases mutexCreate with
      | true => rfl
      | false => rfl

/-! ### Mounting -/

structure Preparing (driver : CardDriver σ) (ctrl : FsCtrl σ) (id : BitVec 8) :
    Prop where
  fs : ctrl.fs = none
  fatFs : ctrl.fatFs = none
  here : driver.exists_ ctrl.cards id = true

structure MountFails (driver : CardDriver σ) (id : BitVec 8) (left : Bool)
    (done : FsCtrlEnd σ) : Prop where
  ret : done.ret = -1
  fs : done.ctrl.fs = none
  fatFs : done.ctrl.fatFs = none
  closed : done.ctrl.closes = done.ctrl.opens
  left : driver.exists_ done.ctrl.cards id = left

structure MountSucceeds (driver : CardDriver σ) (id : BitVec 8)
    (done : FsCtrlEnd σ) : Prop where
  ret : done.ret = 0
  fs : done.ctrl.fs.isSome = true
  fatFs : done.ctrl.fatFs.isSome = true
  device : done.ctrl.device = some id
  usable : driver.Usable done.ctrl.cards id
  closed : done.ctrl.closes = done.ctrl.opens

/-- A mount that has created its card object succeeds if the rest of it does;
if not, the object is left exactly where it cannot be deleted. -/
def MountEnds (driver : CardDriver σ) (id : BitVec 8) (outcomes : Outcomes)
    (completes : Prop) (done : FsCtrlEnd σ) : Prop :=
  (completes ∧ MountSucceeds driver id done) ∨
    (¬ completes ∧ MountFails driver id (!outcomes.delete_) done)

theorem MountEnds.of_iff {id : BitVec 8} {outcomes : Outcomes}
    {rest completes : Prop} {done : FsCtrlEnd σ}
    (ends : MountEnds driver id outcomes rest done) (same : completes ↔ rest) :
    MountEnds driver id outcomes completes done := by
  rw [propext same]
  exact ends

theorem errCard_fails (documented : driver.Documented) {ctrl : FsCtrl σ}
    {id : BitVec 8} (preparing : Preparing driver ctrl id)
    (closed : ctrl.closes = ctrl.opens) (outcomes : Outcomes) :
    MountFails driver id (!outcomes.delete_) (errCard driver ctrl id outcomes) := by
  refine
    { ret := rfl
      fs := preparing.fs
      fatFs := preparing.fatFs
      closed := closed
      left := ?_ }
  change driver.exists_ (driver.delete_ ctrl.cards id outcomes.delete_) id = _
  cases outcomes.delete_ with
  | true => exact documented.deleted ctrl.cards id
  | false => exact (documented.notDeleted ctrl.cards id).trans preparing.here

theorem errFs_fails (documented : driver.Documented) {ctrl : FsCtrl σ}
    {id : BitVec 8} (preparing : Preparing driver ctrl id)
    (closed : ctrl.closes = ctrl.opens) (outcomes : Outcomes) :
    MountFails driver id (!outcomes.delete_) (errFs driver ctrl id outcomes) := by
  unfold errFs
  split_ifs with present
  · have deinited : Preparing driver
        { ctrl with cards := driver.deinit ctrl.cards id outcomes.deinit } id :=
      { fs := preparing.fs
        fatFs := preparing.fatFs
        here := (documented.deinited _ id _).trans preparing.here }
    exact errCard_fails documented deinited closed outcomes
  · exact errCard_fails documented preparing closed outcomes

theorem mountFs_ends (documented : driver.Documented) {ctrl : FsCtrl σ}
    {id : BitVec 8} (preparing : Preparing driver ctrl id)
    (present : driver.present ctrl.cards id = true)
    (closed : ctrl.closes = ctrl.opens) (outcomes : Outcomes) :
    MountEnds driver id outcomes
      (outcomes.malloc.isSome = true ∧
        (ctrl.ffMutexInit = true ∨ outcomes.mutexCreate = true))
      (mountFs driver ctrl id outcomes) := by
  unfold mountFs
  cases outcomes.malloc with
  | none =>
      exact .inr ⟨fun both => Bool.noConfusion both.1,
        errFs_fails documented preparing closed outcomes⟩
  | some fs =>
      dsimp only
      rw [fMount_some]
      by_cases mutex : ctrl.ffMutexInit = true ∨ outcomes.mutexCreate = true
      · rw [if_pos mutex]
        refine .inl ⟨⟨rfl, mutex⟩, ?_⟩
        exact
          { ret := rfl
            fs := rfl
            fatFs := rfl
            device := rfl
            usable := ⟨preparing.here, present⟩
            closed := closed }
      · rw [if_neg mutex]
        have unregistered : Preparing driver { ctrl with ffMutexInit := true } id :=
          { fs := preparing.fs, fatFs := preparing.fatFs, here := preparing.here }
        exact .inr ⟨fun both => mutex both.2,
          errFs_fails documented unregistered closed outcomes⟩

theorem mmcCardClose_preparing (documented : driver.Documented)
    {ctrl : FsCtrl σ} {id : BitVec 8} (preparing : Preparing driver ctrl id)
    (ok : Bool) : Preparing driver (mmcCardClose driver ctrl id ok) id :=
  { fs := preparing.fs
    fatFs := preparing.fatFs
    here := (documented.closed ctrl.cards id ok).trans preparing.here }

theorem mmcCardClose_closed (driver : CardDriver σ) {ctrl : FsCtrl σ} {id : BitVec 8}
    (last : ctrl.opens = ctrl.closes ++ [id]) (ok : Bool) :
    (mmcCardClose driver ctrl id ok).closes =
      (mmcCardClose driver ctrl id ok).opens := last.symm

theorem mountCard_ends (documented : driver.Documented) {ctrl : FsCtrl σ}
    {id : BitVec 8} (preparing : Preparing driver ctrl id)
    (last : ctrl.opens = ctrl.closes ++ [id]) (outcomes : Outcomes) :
    MountEnds driver id outcomes
      ((driver.present ctrl.cards id = true ∨ outcomes.rescan = true) ∧
        outcomes.malloc.isSome = true ∧
        (ctrl.ffMutexInit = true ∨ outcomes.mutexCreate = true))
      (mountCard driver ctrl id outcomes) := by
  unfold mountCard
  by_cases present : driver.present ctrl.cards id = true
  · rw [if_neg (not_not_intro present)]
    have ends := mountFs_ends documented
      (mmcCardClose_preparing documented preparing outcomes.close)
      ((documented.closedPresent ctrl.cards id outcomes.close).trans present)
      (mmcCardClose_closed driver last outcomes.close) outcomes
    exact ends.of_iff (and_iff_right (.inl present))
  · rw [if_pos present]
    have scanned : Preparing driver
        { ctrl with cards := driver.rescan ctrl.cards id outcomes.rescan } id :=
      { fs := preparing.fs
        fatFs := preparing.fatFs
        here := (documented.scanned _ id _).trans preparing.here }
    have closing := mmcCardClose_preparing documented scanned outcomes.close
    dsimp only
    cases rescan : outcomes.rescan with
    | false =>
        rw [rescan] at closing
        refine .inr ⟨fun all => all.1.elim present Bool.false_ne_true, ?_⟩
        exact errCard_fails documented closing
          (mmcCardClose_closed driver last outcomes.close) outcomes
    | true =>
        rw [rescan] at closing
        have ends := mountFs_ends documented closing
          ((documented.closedPresent _ id outcomes.close).trans
            (documented.scannedPresent ctrl.cards id preparing.here))
          (mmcCardClose_closed driver last outcomes.close) outcomes
        exact ends.of_iff (and_iff_right (.inr rfl))

theorem fsCtrlMount_ends (documented : driver.Documented) {ctrl : FsCtrl σ}
    (fs : ctrl.fs = none) (fatFs : ctrl.fatFs = none)
    (closed : ctrl.closes = ctrl.opens) (devId : BitVec 32)
    {outcomes : Outcomes} (create : outcomes.create = true) :
    MountEnds driver (devId.setWidth 8) outcomes
      (Completes driver ctrl (devId.setWidth 8) outcomes)
      (fsCtrlMount driver ctrl devId outcomes) := by
  unfold fsCtrlMount
  dsimp only
  rw [if_neg (by rw [fs]; exact Bool.false_ne_true), create,
    if_neg (not_not_intro rfl)]
  have opened : ∀ ok, Preparing driver (mmcCardOpen driver
      { ctrl with cards := driver.create ctrl.cards (devId.setWidth 8) true }
      (devId.setWidth 8) ok) (devId.setWidth 8) := fun ok =>
    { fs := fs
      fatFs := fatFs
      here := (documented.opened _ _ ok).trans (documented.created ctrl.cards _) }
  cases open_ : outcomes.open_ with
  | false =>
      refine .inr ⟨fun all => ?_, ?_⟩
      · exact Bool.false_ne_true (open_.symm.trans all.1)
      · exact errCard_fails documented (opened false) closed outcomes
  | true =>
      have ends := mountCard_ends documented (opened true)
        (congrArg (· ++ [devId.setWidth 8]) closed.symm) outcomes
      exact ends.of_iff (and_iff_right open_)

/-- A mount that was refused the card object leaves the cards as they were. -/
theorem fsCtrlMount_refused (documented : driver.Documented) {ctrl : FsCtrl σ}
    (fs : ctrl.fs = none) (fatFs : ctrl.fatFs = none)
    (closed : ctrl.closes = ctrl.opens) (devId : BitVec 32)
    {outcomes : Outcomes} (create : ¬ outcomes.create = true) :
    MountFails driver (devId.setWidth 8)
      (driver.exists_ ctrl.cards (devId.setWidth 8))
      (fsCtrlMount driver ctrl devId outcomes) := by
  unfold fsCtrlMount
  dsimp only
  rw [if_neg (by rw [fs]; exact Bool.false_ne_true),
    Bool.eq_false_of_not_eq_true create, if_pos Bool.false_ne_true]
  exact
    { ret := rfl
      fs := fs
      fatFs := fatFs
      closed := closed
      left := documented.notCreated ctrl.cards _ }

theorem fsCtrlMount_again {ctrl : FsCtrl σ} (fs : ctrl.fs.isSome = true)
    (devId : BitVec 32) (outcomes : Outcomes) :
    fsCtrlMount driver ctrl devId outcomes =
      { ctrl := ctrl, ret := 0, sent := none } := by
  unfold fsCtrlMount
  dsimp only
  rw [if_pos fs]

/-! ### Unmounting -/

theorem unmountCard_fs (driver : CardDriver σ) (ctrl : FsCtrl σ) (id : BitVec 8)
    (outcomes : Outcomes) :
    (unmountCard driver ctrl id outcomes).fs = ctrl.fs ∧
      (unmountCard driver ctrl id outcomes).fatFs = ctrl.fatFs := by
  unfold unmountCard
  dsimp only
  split_ifs <;> exact ⟨rfl, rfl⟩

theorem unmountCard_closed {ctrl : FsCtrl σ} (closed : ctrl.closes = ctrl.opens)
    (id : BitVec 8) (outcomes : Outcomes) :
    (unmountCard driver ctrl id outcomes).closes =
      (unmountCard driver ctrl id outcomes).opens := by
  unfold unmountCard
  cases outcomes.open_ with
  | false => exact closed
  | true =>
      dsimp only
      rw [if_neg (not_not_intro rfl)]
      split_ifs <;> exact congrArg (· ++ [id]) closed

theorem fsCtrlUnmount_mounted {ctrl : FsCtrl σ} (fs : ctrl.fs.isSome = true)
    (devId : BitVec 32) (outcomes : Outcomes) :
    (fsCtrlUnmount driver ctrl devId outcomes).ctrl =
      unmountCard driver { ctrl with fs := none, fatFs := none }
        (devId.setWidth 8) outcomes := by
  unfold fsCtrlUnmount
  dsimp only
  rw [if_neg (Option.ne_none_iff_isSome.mpr fs), fMount_none]
  rfl

/-! ### Runs -/

/-- What every call keeps: a file system that is set is registered for a usable
card, none is registered otherwise, and every open has its close. -/
structure Settled (driver : CardDriver σ) (ctrl : FsCtrl σ) : Prop where
  mounted : ctrl.fs.isSome = true → Mounted driver ctrl
  unmounted : ctrl.fs = none → ctrl.fatFs = none
  closed : ctrl.closes = ctrl.opens

theorem Settled.mounted_iff {ctrl : FsCtrl σ} (settled : Settled driver ctrl) :
    ctrl.fs.isSome = true ↔ Mounted driver ctrl := by
  refine ⟨settled.mounted, fun mounted => ?_⟩
  by_contra unset
  have fatFs := settled.unmounted (Option.not_isSome_iff_eq_none.mp unset)
  exact Bool.false_ne_true ((congrArg Option.isSome fatFs).symm.trans mounted.1)

theorem MountFails.settled {id : BitVec 8} {left : Bool} {done : FsCtrlEnd σ}
    (fails : MountFails driver id left done) : Settled driver done.ctrl :=
  { mounted := fun set_ => by
      rw [fails.fs] at set_
      cases set_
    unmounted := fun _ => fails.fatFs
    closed := fails.closed }

theorem MountSucceeds.settled {id : BitVec 8} {done : FsCtrlEnd σ}
    (succeeds : MountSucceeds driver id done) : Settled driver done.ctrl :=
  { mounted := fun _ => ⟨succeeds.fatFs, id, succeeds.device, succeeds.usable⟩
    unmounted := fun unset => by
      have set_ := succeeds.fs
      rw [unset] at set_
      cases set_
    closed := succeeds.closed }

theorem fsCtrlMount_settled (documented : driver.Documented) {ctrl : FsCtrl σ}
    (settled : Settled driver ctrl) (devId : BitVec 32) (outcomes : Outcomes) :
    Settled driver (fsCtrlMount driver ctrl devId outcomes).ctrl := by
  by_cases fs : ctrl.fs.isSome = true
  · rw [fsCtrlMount_again fs]
    exact settled
  · have unset := Option.not_isSome_iff_eq_none.mp fs
    by_cases create : outcomes.create = true
    · obtain ⟨_, succeeds⟩ | ⟨_, fails⟩ := fsCtrlMount_ends documented unset
        (settled.unmounted unset) settled.closed devId create
      · exact succeeds.settled
      · exact fails.settled
    · exact (fsCtrlMount_refused documented unset (settled.unmounted unset)
        settled.closed devId create).settled

theorem fsCtrlUnmount_settled {ctrl : FsCtrl σ} (settled : Settled driver ctrl)
    (devId : BitVec 32) (outcomes : Outcomes) :
    Settled driver (fsCtrlUnmount driver ctrl devId outcomes).ctrl := by
  by_cases fs : ctrl.fs.isSome = true
  · rw [fsCtrlUnmount_mounted fs]
    obtain ⟨unset, unregistered⟩ := unmountCard_fs driver
      { ctrl with fs := none, fatFs := none } (devId.setWidth 8) outcomes
    have closed : ({ ctrl with fs := none, fatFs := none } : FsCtrl σ).closes =
        { ctrl with fs := none, fatFs := none }.opens := settled.closed
    refine
      { mounted := fun set_ => ?_
        unmounted := fun _ => unregistered
        closed := unmountCard_closed closed (devId.setWidth 8) outcomes }
    rw [unset] at set_
    cases set_
  · unfold fsCtrlUnmount
    dsimp only
    rw [if_pos (Option.not_isSome_iff_eq_none.mp fs)]
    exact settled

theorem fsCtrlStep_settled (documented : driver.Documented) (ctrl : FsCtrl σ)
    (call : FsCtrlCall) (settled : Settled driver ctrl) :
    Settled driver (fsCtrlStep driver ctrl call) := by
  cases call with
  | mount devId outcomes =>
      exact fsCtrlMount_settled documented settled devId outcomes
  | unmount devId outcomes => exact fsCtrlUnmount_settled settled devId outcomes

theorem mountPromise_iff (documented : driver.Documented) {ctrl : FsCtrl σ}
    (settled : Settled driver ctrl) (devId : BitVec 32) (outcomes : Outcomes) :
    MountPromise driver ctrl (.mount devId outcomes) ↔
      ((fsCtrlMount driver ctrl devId outcomes).ret = -1 →
        driver.exists_ (fsCtrlMount driver ctrl devId outcomes).ctrl.cards
            (devId.setWidth 8) = false ∧
          (fsCtrlMount driver ctrl devId outcomes).ctrl.fatFs = none) ∧
      ((fsCtrlMount driver ctrl devId outcomes).ret = 0 →
        driver.Usable (fsCtrlMount driver ctrl devId outcomes).ctrl.cards
          (devId.setWidth 8)) := by
  have after := fsCtrlMount_settled documented settled devId outcomes
  constructor
  · intro promise
    exact ⟨promise.failed devId outcomes rfl, promise.usable devId outcomes rfl⟩
  · rintro ⟨failed, usable⟩
    refine
      { mounted := after.mounted_iff
        closed := after.closed
        failed := ?_
        usable := ?_ }
    · rintro _ _ ⟨⟩
      exact failed
    · rintro _ _ ⟨⟩
      exact usable

theorem MountFails.promise_iff {id : BitVec 8} {left : Bool}
    {done : FsCtrlEnd σ} (fails : MountFails driver id left done) :
    ((done.ret = -1 → driver.exists_ done.ctrl.cards id = false ∧
        done.ctrl.fatFs = none) ∧
      (done.ret = 0 → driver.Usable done.ctrl.cards id)) ↔ left = false := by
  rw [fails.ret, fails.left, fails.fatFs]
  constructor
  · intro both
    exact (both.1 rfl).1
  · intro gone
    exact ⟨fun _ => ⟨gone, rfl⟩, fun zero => by cases zero⟩

theorem MountSucceeds.promise {id : BitVec 8} {done : FsCtrlEnd σ}
    (succeeds : MountSucceeds driver id done) :
    (done.ret = -1 → driver.exists_ done.ctrl.cards id = false ∧
        done.ctrl.fatFs = none) ∧
      (done.ret = 0 → driver.Usable done.ctrl.cards id) := by
  rw [succeeds.ret]
  exact ⟨fun minus => (by cases minus), fun _ => succeeds.usable⟩

theorem mountPromise_iff_cleanMount (documented : driver.Documented)
    (ctrl : FsCtrl σ) (call : FsCtrlCall) (settled : Settled driver ctrl) :
    MountPromise driver ctrl call ↔ CleanMount driver ctrl call := by
  cases call with
  | unmount devId outcomes =>
      have after := fsCtrlUnmount_settled settled devId outcomes
      refine iff_of_true ?_ trivial
      exact
        { mounted := after.mounted_iff
          closed := after.closed
          failed := fun _ _ impossible => by cases impossible
          usable := fun _ _ impossible => by cases impossible }
  | mount devId outcomes =>
      rw [mountPromise_iff documented settled]
      change _ ↔ ite _ _ _
      by_cases fs : ctrl.fs.isSome = true
      · rw [fsCtrlMount_again fs, if_pos fs]
        obtain ⟨_, id, device, usable⟩ := settled.mounted fs
        constructor
        · intro both
          exact .inr (both.2 rfl)
        · intro named
          refine ⟨fun minus => (by cases minus), fun _ => ?_⟩
          obtain same | other := named
          · rw [device] at same
            cases same
            exact usable
          · exact other
      · have unset := Option.not_isSome_iff_eq_none.mp fs
        have fatFs := settled.unmounted unset
        rw [if_neg fs]
        by_cases create : outcomes.create = true
        · rw [if_pos create]
          obtain ⟨completes, succeeds⟩ | ⟨not, fails⟩ := fsCtrlMount_ends
            documented unset fatFs settled.closed devId create
          · exact iff_of_true succeeds.promise (.inl completes)
          · rw [fails.promise_iff, or_iff_right not, Bool.not_eq_false']
        · rw [if_neg create]
          exact (fsCtrlMount_refused documented unset fatFs settled.closed devId
            create).promise_iff

/-- Every call of a run keeps what it promises exactly if every mount of it is
clean. -/
theorem mountPromise_iff_clean (documented : driver.Documented) (cards : σ)
    (calls : List FsCtrlCall) :
    Along (fsCtrlStep driver) (MountPromise driver) (fsCtrlStart cards) calls ↔
      Along (fsCtrlStep driver) (CleanMount driver) (fsCtrlStart cards) calls :=
  along_iff_along (MountPromise driver) (CleanMount driver) (Settled driver)
    (fsCtrlStep_settled documented) (mountPromise_iff_cleanMount documented)
    (fsCtrlStart cards)
    { mounted := fun impossible => by cases impossible
      unmounted := fun _ => rfl
      closed := rfl }
    calls

end Proofs

/-! ### A driver with a table -/

/-- The cards there are, with whether they have been initialised; a call that
fails does nothing. -/
def tableDriver : CardDriver (BitVec 8 → Option Bool) where
  exists_ cards id := (cards id).isSome
  present cards id := cards id = some true
  create cards id ok := if ok then Function.update cards id (some false) else cards
  delete_ cards id ok := if ok then Function.update cards id none else cards
  open_ cards _ _ := cards
  close cards _ _ := cards
  rescan cards id ok :=
    if ok then Function.update cards id ((cards id).map fun _ => true) else cards
  deinit cards id ok :=
    if ok then Function.update cards id ((cards id).map fun _ => false) else cards

theorem isSome_update_map (cards : BitVec 8 → Option Bool) (id : BitVec 8)
    (ok present : Bool) :
    ((if ok then Function.update cards id ((cards id).map fun _ => present)
      else cards) id).isSome = (cards id).isSome := by
  cases ok with
  | false => rfl
  | true =>
      rw [if_pos rfl, Function.update_self]
      exact Option.isSome_map

theorem tableDriver_documented : tableDriver.Documented where
  created cards id := by
    change (Function.update cards id (some false) id).isSome = true
    rw [Function.update_self]
    rfl
  notCreated _ _ := rfl
  deleted cards id := by
    change (Function.update cards id none id).isSome = false
    rw [Function.update_self]
    rfl
  notDeleted _ _ := rfl
  opened _ _ _ := rfl
  closed _ _ _ := rfl
  scanned cards id ok := isSome_update_map cards id ok true
  deinited cards id ok := isSome_update_map cards id ok false
  scannedPresent cards id here := by
    obtain ⟨_, found⟩ := Option.isSome_iff_exists.mp here
    change decide (Function.update cards id ((cards id).map fun _ => true) id =
      some true) = true
    rw [Function.update_self, found]
    rfl
  closedPresent _ _ _ := rfl

/-- Every call underneath succeeds. -/
def allSucceed : Outcomes :=
  { create := true, open_ := true, rescan := true, malloc := some 0,
    mutexCreate := true, deinit := true, close := true, delete_ := true }

/-- A mount that fails, one that succeeds, and an unmount. -/
theorem mountPromise_retried :
    Along (fsCtrlStep tableDriver) (MountPromise tableDriver)
      (fsCtrlStart fun _ => none)
      [.mount 0 { allSucceed with rescan := false }, .mount 0 allSucceed,
        .unmount 0 allSucceed] :=
  (mountPromise_iff_clean tableDriver_documented _ _).mpr
    ⟨.inr rfl, .inl (by decide), trivial, trivial⟩

/-- The card object that an unmount cannot open stays, and the next mount is
refused another. -/
theorem unmountedCard_left :
    ¬ Along (fsCtrlStep tableDriver) (MountPromise tableDriver)
      (fsCtrlStart fun _ => none)
      [.mount 0 allSucceed, .unmount 0 { allSucceed with open_ := false },
        .mount 0 { allSucceed with create := false }] := by
  rintro ⟨_, _, last, _⟩
  obtain ⟨gone, _⟩ := last.failed 0 _ rfl rfl
  revert gone
  decide

end XR872.Storage
