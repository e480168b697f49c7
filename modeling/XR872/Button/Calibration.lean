/-
Buttons on analog channels.

A button is recognised by a voltage within a window around a reference value.
When two samples in a row lie in the window, the second one becomes the
reference value.
-/

import XR872.Library.Run

namespace XR872.Button

open Runs

def AD_FLUCTUATION : Nat := 100

def AD_MAX_VALUE : Nat := 4095

def ALL_BUTTONS_RELEASE : BitVec 32 := 0

def INVALID_BUTTON_STATE : BitVec 32 := 0xffffffff#32

/-- `ad_buttons_info` as the board configures it. -/
structure AdButtons (n : Nat) where
  mask : Fin n → BitVec 32
  channel : Fin n → Nat
  value : Fin n → Nat

variable {n : Nat} (config : AdButtons n)

/-- `ad_buttons_max_value`, as `ad_buttons_init` computes it. -/
def adButtonsMaxValue : Nat :=
  let largest := (List.finRange n).foldl
    (fun largest index =>
      if config.value index > largest then config.value index else largest) 0
  if largest + AD_FLUCTUATION ≥ AD_MAX_VALUE then AD_MAX_VALUE
  else largest + AD_FLUCTUATION

def InWindow (value adValue : Int) : Prop :=
  adValue ≥ value - AD_FLUCTUATION ∧ adValue ≤ value + AD_FLUCTUATION

instance (value adValue : Int) : Decidable (InWindow value adValue) :=
  inferInstanceAs (Decidable (_ ∧ _))

/-- The stored reference values, and the locals of `get_ad_buttons_state`. -/
structure AdScan (n : Nat) where
  values : Fin n → Int
  adValue : Nat
  adButtonsState : BitVec 32
  isTriggered : Bool

/-- The two samples that the channel of a button would give. -/
abbrev AdSamples (n : Nat) := Fin n → Nat × Nat

def adScanBegin (values : Fin n → Int) : AdScan n :=
  { values := values, adValue := 0, adButtonsState := 0, isTriggered := false }

def adScanButton (samples : AdSamples n) (scan : AdScan n) (index : Fin n) :
    AdScan n :=
  let first := (samples index).1
  let scan :=
    { scan with
      adValue := first
      isTriggered := scan.isTriggered || first < adButtonsMaxValue config }
  if InWindow (scan.values index) first then
    let second := (samples index).2
    let scan := { scan with adValue := second }
    if InWindow (scan.values index) second then
      { scan with
        values := Function.update scan.values index second
        adButtonsState := scan.adButtonsState ||| config.mask index }
    else scan
  else scan

def adScan (values : Fin n → Int) (samples : AdSamples n) : AdScan n :=
  run (adScanButton config samples) (adScanBegin values) (List.finRange n)

def getAdButtonsState (values : Fin n → Int) (samples : AdSamples n) :
    BitVec 32 :=
  let scan := adScan config values samples
  if scan.adButtonsState = 0 ∧ scan.isTriggered = true then
    if scan.adValue > adButtonsMaxValue config then ALL_BUTTONS_RELEASE
    else INVALID_BUTTON_STATE
  else scan.adButtonsState

def buttonsLowLevelGetState (adButtonsState gpioButtonsState : BitVec 32) :
    BitVec 32 :=
  if adButtonsState = INVALID_BUTTON_STATE then INVALID_BUTTON_STATE
  else adButtonsState ||| gpioButtonsState

/-- What a call leaves of the reference values. -/
def adCall (values : Fin n → Int) (samples : AdSamples n) : Fin n → Int :=
  (adScan config values samples).values

def adStart : Fin n → Int := fun index => config.value index

/-! ### The promise -/

/-- No voltage lies in two windows of a channel. -/
def Apart (values : Fin n → Int) : Prop :=
  ∀ left right, left ≠ right → config.channel left = config.channel right →
    ∀ adValue, ¬ (InWindow (values left) adValue ∧ InWindow (values right) adValue)

structure Calibrated (values : Fin n → Int) : Prop where
  apart : Apart config values
  below : ∀ index, values index + AD_FLUCTUATION ≤ adButtonsMaxValue config
  nominal : ∀ index, InWindow (values index) (config.value index)

def Clear (left right : Int) : Prop :=
  left + 2 * AD_FLUCTUATION < right ∨ right + 2 * AD_FLUCTUATION < left

instance (left right : Int) : Decidable (Clear left right) :=
  inferInstanceAs (Decidable (_ ∨ _))

def Stores (samples : AdSamples n) (scan : AdScan n) (index : Fin n) : Prop :=
  InWindow (scan.values index) (samples index).1 ∧
    InWindow (scan.values index) (samples index).2

instance (samples : AdSamples n) (scan : AdScan n) (index : Fin n) :
    Decidable (Stores samples scan index) :=
  inferInstanceAs (Decidable (_ ∧ _))

/-- A sample that is stored lies more than two fluctuations from the other
reference values of the channel, one or more below the largest value, and no
more than one from the nominal value. -/
def StoresNear (samples : AdSamples n) (scan : AdScan n) (index : Fin n) :
    Prop :=
  Stores samples scan index →
    (∀ other, other ≠ index → config.channel other = config.channel index →
      Clear (samples index).2 (scan.values other)) ∧
    (samples index).2 + AD_FLUCTUATION ≤ adButtonsMaxValue config ∧
    InWindow (config.value index) (samples index).2

instance (samples : AdSamples n) (scan : AdScan n) (index : Fin n) :
    Decidable (StoresNear config samples scan index) :=
  inferInstanceAs (Decidable (_ → _))

/-! ### One turn -/

theorem clear_iff (left right : Int) :
    Clear left right ↔
      ∀ adValue, ¬ (InWindow left adValue ∧ InWindow right adValue) := by
  unfold Clear InWindow AD_FLUCTUATION
  constructor
  · intro clear adValue both
    omega
  · intro none_
    by_contra meets
    exact none_ (max left right - 100) (by omega)

theorem inWindow_comm (left right : Int) :
    InWindow left right ↔ InWindow right left := by
  unfold InWindow
  omega

theorem adScanButton_values (samples : AdSamples n) (scan : AdScan n)
    (index : Fin n) :
    (Stores samples scan index → (adScanButton config samples scan index).values =
      Function.update scan.values index ((samples index).2 : Int)) ∧
    (¬ Stores samples scan index →
      (adScanButton config samples scan index).values = scan.values) := by
  unfold adScanButton Stores
  dsimp only
  split_ifs with first second
  · exact ⟨fun _ => rfl, fun neither => absurd ⟨first, second⟩ neither⟩
  · exact ⟨fun both => absurd both.2 second, fun _ => rfl⟩
  · exact ⟨fun both => absurd both.1 first, fun _ => rfl⟩

/-- A turn keeps the calibration exactly if what it stores is near. -/
theorem adScanButton_calibrated_iff (samples : AdSamples n) (scan : AdScan n)
    (index : Fin n) (calibrated : Calibrated config scan.values) :
    Calibrated config (adScanButton config samples scan index).values ↔
      StoresNear config samples scan index := by
  obtain ⟨stored, kept⟩ := adScanButton_values config samples scan index
  by_cases stores : Stores samples scan index
  · rw [stored stores]
    constructor
    · intro after _
      refine ⟨fun other different same => ?_, ?_, ?_⟩
      · have apart := after.apart index other (Ne.symm different) same.symm
        rw [Function.update_self, Function.update_of_ne different] at apart
        exact (clear_iff _ _).mpr apart
      · have below := after.below index
        rw [Function.update_self] at below
        omega
      · have nominal := after.nominal index
        rw [Function.update_self] at nominal
        exact (inWindow_comm _ _).mp nominal
    · intro near
      obtain ⟨clear, below, nominal⟩ := near stores
      refine ⟨fun left right different same => ?_, fun other => ?_, fun other => ?_⟩
      · apply (clear_iff _ _).mp
        by_cases isLeft : left = index
        · subst isLeft
          rw [Function.update_self, Function.update_of_ne (Ne.symm different)]
          exact clear right (Ne.symm different) same.symm
        · by_cases isRight : right = index
          · subst isRight
            rw [Function.update_self, Function.update_of_ne different]
            exact (clear left different same).symm
          · rw [Function.update_of_ne isLeft, Function.update_of_ne isRight]
            exact (clear_iff _ _).mpr (calibrated.apart left right different same)
      · by_cases here : other = index
        · subst here
          rw [Function.update_self]
          omega
        · rw [Function.update_of_ne here]
          exact calibrated.below other
      · by_cases here : other = index
        · subst here
          rw [Function.update_self]
          exact (inWindow_comm _ _).mp nominal
        · rw [Function.update_of_ne here]
          exact calibrated.nominal other
  · rw [kept stores]
    exact iff_of_true calibrated fun both => absurd both stores

/-! ### Runs -/

/-- Every turn of the call leaves the buttons calibrated. -/
def CallCalibrated (values : Fin n → Int) (samples : AdSamples n) : Prop :=
  Always (adScanButton config samples) (fun scan => Calibrated config scan.values)
    (adScanBegin values) (List.finRange n)

/-- Every turn of the call stores near. -/
def CallStoresNear (values : Fin n → Int) (samples : AdSamples n) : Prop :=
  Along (adScanButton config samples) (StoresNear config samples)
    (adScanBegin values) (List.finRange n)

instance (values : Fin n → Int) (samples : AdSamples n) :
    Decidable (CallStoresNear config values samples) :=
  inferInstanceAs (Decidable (Along _ _ _ _))

theorem callCalibrated_iff (values : Fin n → Int) (samples : AdSamples n)
    (calibrated : Calibrated config values) :
    CallCalibrated config values samples ↔ CallStoresNear config values samples :=
  always_iff_along (fun scan : AdScan n => Calibrated config scan.values)
    (StoresNear config samples) (fun _ => True) (fun _ _ _ _ _ => trivial)
    (fun scan index _ now => adScanButton_calibrated_iff config samples scan index now)
    (adScanBegin values) trivial calibrated (List.finRange n)

theorem CallCalibrated.after {values : Fin n → Int} {samples : AdSamples n}
    (call : CallCalibrated config values samples) :
    Calibrated config (adCall config values samples) :=
  call (List.finRange n) List.prefix_rfl

theorem le_largest (indices : List (Fin n)) (largest : Nat) :
    largest ≤ indices.foldl
        (fun largest index =>
          if config.value index > largest then config.value index else largest)
        largest ∧
      ∀ index ∈ indices, config.value index ≤ indices.foldl
        (fun largest index =>
          if config.value index > largest then config.value index else largest)
        largest := by
  induction indices generalizing largest with
  | nil => exact ⟨Nat.le_refl _, fun _ none_ => by cases none_⟩
  | cons head rest ih =>
      rw [List.foldl_cons]
      obtain ⟨from_, all⟩ := ih
        (if config.value head > largest then config.value head else largest)
      have both : largest ≤
            (if config.value head > largest then config.value head else largest) ∧
          config.value head ≤
            (if config.value head > largest then config.value head else largest) := by
        split_ifs
        all_goals omega
      refine ⟨Nat.le_trans both.1 from_, fun index member => ?_⟩
      rcases List.mem_cons.mp member with here | later
      · rw [here]
        exact Nat.le_trans both.2 from_
      · exact all index later

/-- A window lies below the largest value exactly if it lies below that of the
converter. -/
theorem below_iff :
    (∀ index, (config.value index : Int) + AD_FLUCTUATION ≤
        adButtonsMaxValue config) ↔
      ∀ index, config.value index + AD_FLUCTUATION ≤ AD_MAX_VALUE := by
  have largest := fun index =>
    (le_largest config (List.finRange n) 0).2 index (List.mem_finRange index)
  apply forall_congr'
  intro index
  have here := largest index
  unfold adButtonsMaxValue
  dsimp only
  split_ifs with capped
  all_goals omega

/-- From a configuration with windows apart, the buttons stay calibrated
throughout a run exactly if the configured windows lie within the range of the
converter and every sample that is stored is near. -/
theorem calibrated_iff (calls : List (AdSamples n))
    (apart : Apart config (adStart config)) :
    (Calibrated config (adStart config) ∧
        Along (adCall config) (CallCalibrated config) (adStart config) calls) ↔
      (∀ index, config.value index + AD_FLUCTUATION ≤ AD_MAX_VALUE) ∧
        Along (adCall config) (CallStoresNear config) (adStart config) calls := by
  have start : Calibrated config (adStart config) ↔
      ∀ index, config.value index + AD_FLUCTUATION ≤ AD_MAX_VALUE := by
    rw [← below_iff]
    constructor
    · intro calibrated
      exact calibrated.below
    · intro below
      refine ⟨apart, below, fun index => ?_⟩
      unfold InWindow adStart AD_FLUCTUATION
      omega
  rw [start]
  apply and_congr_right
  intro below
  exact along_iff_along_of_kept (CallCalibrated config) (CallStoresNear config)
    (Calibrated config)
    (fun values samples calibrated near =>
      ((callCalibrated_iff config values samples calibrated).mpr near).after)
    (callCalibrated_iff config) (adStart config) (start.mpr below) calls

/-! ### Two buttons -/

/-- Two buttons on one channel, 300 apart. -/
def twoButtons : AdButtons 2 :=
  { mask := ![1, 2], channel := ![0, 0], value := ![1000, 1300] }

theorem twoButtons_apart : Apart twoButtons (adStart twoButtons) := by
  intro left right different same
  apply (clear_iff _ _).mp
  have all : ∀ left right : Fin 2, left ≠ right →
      Clear (adStart twoButtons left) (adStart twoButtons right) := by decide
  exact all left right different

/-- Each button is pressed once, a little beside its nominal value. -/
theorem twoButtons_calibrated :
    Calibrated twoButtons (adStart twoButtons) ∧
      Along (adCall twoButtons) (CallCalibrated twoButtons) (adStart twoButtons)
        [![(1010, 980), (1010, 1010)], ![(1290, 1290), (1290, 1285)]] := by
  apply (calibrated_iff twoButtons _ twoButtons_apart).mpr
  exact ⟨by decide, by decide, by decide, trivial⟩

/-- The first button is pressed twice, each time near the edge of its window. -/
theorem drift_uncalibrated :
    ¬ (Calibrated twoButtons (adStart twoButtons) ∧
      Along (adCall twoButtons) (CallCalibrated twoButtons) (adStart twoButtons)
        [![(1090, 1090), (1090, 1090)], ![(1170, 1170), (1170, 1170)]]) := by
  rintro ⟨_, _, second, _⟩
  have nominal := second.after.nominal 0
  revert nominal
  decide

end XR872.Button
