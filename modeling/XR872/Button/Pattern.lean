/-
The callbacks that are documented for each type of button.

An object has said a number of whole repetitions of its pattern, and the part
of the next one that its state tells.
-/

import XR872.Button.Buttons

namespace XR872.Button

open ButtonType ButtonState

inductive Round : ButtonType → List ButtonState → Prop
  | short : Round SHORT_BUTTON [RELEASE]
  | long : Round LONG_BUTTON [PRESS, RELEASE]
  | shortLong : Round SHORT_LONG_BUTTON [RELEASE]
  | shortLongRepeat : Round SHORT_LONG_BUTTON [PRESS, REPEAT_RELEASE]
  | combined : Round COMBINED_LONG_BUTTON [PRESS, RELEASE]
  | repeatLong (count : Nat) :
      Round REPEAT_LONG_BUTTON
        (PRESS :: (List.replicate count REPEAT_PRESS ++ [RELEASE]))

/-- The callbacks are a prefix of repetitions of the pattern. -/
def Repeats (func : ButtonType) (callbacks : List ButtonState) : Prop :=
  ∃ rounds : List (List ButtonState),
    (∀ round ∈ rounds, Round func round) ∧
    callbacks <+: rounds.flatten

inductive Opened : ButtonType → ButtonState → List ButtonState → Prop
  | invalid (func : ButtonType) : Opened func INVALID_STA []
  | short : Opened SHORT_BUTTON PRESS []
  | press (func : ButtonType) (timed : func ≠ SHORT_BUTTON) :
      Opened func PRESS [PRESS]
  | repeatPress (count : Nat) :
      Opened REPEAT_LONG_BUTTON REPEAT_PRESS
        (PRESS :: List.replicate (count + 1) REPEAT_PRESS)

/-- The callbacks of an object fit its state. -/
def Fits (func : ButtonType) (state : ButtonState)
    (callbacks : List ButtonState) : Prop :=
  ∃ (rounds : List (List ButtonState)) (part : List ButtonState),
    (∀ round ∈ rounds, Round func round) ∧
    Opened func state part ∧ callbacks = rounds.flatten ++ part

theorem Opened.closes {func : ButtonType} {state : ButtonState}
    {part : List ButtonState} (opened : Opened func state part) :
    ∃ round, Round func round ∧ part <+: round := by
  cases opened with
  | invalid =>
      cases func with
      | SHORT_BUTTON => exact ⟨_, .short, List.nil_prefix⟩
      | LONG_BUTTON => exact ⟨_, .long, List.nil_prefix⟩
      | SHORT_LONG_BUTTON => exact ⟨_, .shortLong, List.nil_prefix⟩
      | COMBINED_LONG_BUTTON => exact ⟨_, .combined, List.nil_prefix⟩
      | REPEAT_LONG_BUTTON => exact ⟨_, .repeatLong 0, List.nil_prefix⟩
  | short => exact ⟨_, .short, List.nil_prefix⟩
  | press _ timed =>
      cases func with
      | SHORT_BUTTON => exact absurd rfl timed
      | LONG_BUTTON => exact ⟨_, .long, List.prefix_append [PRESS] _⟩
      | SHORT_LONG_BUTTON =>
          exact ⟨_, .shortLongRepeat, List.prefix_append [PRESS] _⟩
      | COMBINED_LONG_BUTTON =>
          exact ⟨_, .combined, List.prefix_append [PRESS] _⟩
      | REPEAT_LONG_BUTTON =>
          exact ⟨_, .repeatLong 0, List.prefix_append [PRESS] _⟩
  | repeatPress count =>
      refine ⟨_, .repeatLong (count + 1), ?_⟩
      exact List.cons_prefix_cons.mpr ⟨rfl, List.prefix_append _ _⟩

theorem Fits.repeats {func : ButtonType} {state : ButtonState}
    {callbacks : List ButtonState} (fits : Fits func state callbacks) :
    Repeats func callbacks := by
  obtain ⟨rounds, part, complete, opened, rfl⟩ := fits
  obtain ⟨last, closed, within⟩ := opened.closes
  refine ⟨rounds ++ [last], ?_, ?_⟩
  · intro round member
    rcases List.mem_append.mp member with earlier | atEnd
    · exact complete round earlier
    · rw [List.mem_singleton.mp atEnd]
      exact closed
  · rw [List.flatten_append, List.flatten_singleton]
    exact (List.prefix_append_right_inj _).mpr within

theorem Fits.goesOn {func : ButtonType} {state event : ButtonState}
    {callbacks : List ButtonState} (fits : Fits func state callbacks)
    (next : ∀ part, Opened func state part →
      Opened func event (part ++ [event])) :
    Fits func event (callbacks ++ [event]) := by
  obtain ⟨rounds, part, complete, opened, rfl⟩ := fits
  exact ⟨rounds, part ++ [event], complete, next part opened,
    List.append_assoc ..⟩

def Ends (func : ButtonType) (state event : ButtonState) : Prop :=
  ∀ part, Opened func state part → Round func (part ++ [event])

def Unsaid (func : ButtonType) (state : ButtonState) : Prop :=
  ∀ part, Opened func state part → part = []

theorem Fits.ended {func : ButtonType} {state event : ButtonState}
    {callbacks : List ButtonState} (fits : Fits func state callbacks)
    (ends : Ends func state event) :
    Fits func INVALID_STA (callbacks ++ [event]) := by
  obtain ⟨rounds, part, complete, opened, rfl⟩ := fits
  refine ⟨rounds ++ [part ++ [event]], [], ?_, .invalid func, ?_⟩
  · intro round member
    rcases List.mem_append.mp member with earlier | last
    · exact complete round earlier
    · rw [List.mem_singleton.mp last]
      exact ends part opened
  · rw [List.flatten_append, List.flatten_singleton, List.append_nil,
      List.append_assoc]

theorem Fits.unsaid {func : ButtonType} {state next : ButtonState}
    {callbacks : List ButtonState} (fits : Fits func state callbacks)
    (unsaid : Unsaid func state) (opened : Opened func next []) :
    Fits func next callbacks := by
  obtain ⟨rounds, part, complete, before, rfl⟩ := fits
  rw [unsaid part before]
  exact ⟨rounds, [], complete, opened, rfl⟩

theorem unsaid_invalid (func : ButtonType) : Unsaid func INVALID_STA := by
  intro part opened
  cases opened
  rfl

def Releases (func : ButtonType) (state : ButtonState) (due : Bool)
    (event : ButtonState) : Prop :=
  if due then Ends func state event else Unsaid func state

theorem Fits.released {func : ButtonType} {state event : ButtonState}
    {due : Bool} {callbacks : List ButtonState}
    (fits : Fits func state callbacks)
    (releases : Releases func state due event) :
    Fits func INVALID_STA
      (if due then callbacks ++ [event] else callbacks) := by
  cases due with
  | true => exact fits.ended releases
  | false => exact fits.unsaid releases (.invalid func)

theorem short_releases (state : ButtonState) (buttonsState : BitVec 32) :
    Releases SHORT_BUTTON state
      (decide (buttonsState = ALL_BUTTONS_RELEASE ∧ state = PRESS))
      RELEASE := by
  unfold Releases
  split
  · intro part opened
    cases opened with
    | invalid => exact .short
    | short => exact .short
    | press _ timed => exact absurd rfl timed
  · intro part opened
    cases opened with
    | invalid => rfl
    | short => rfl
    | press _ timed => exact absurd rfl timed

theorem long_releases (state : ButtonState) :
    Releases LONG_BUTTON state
      (decide (state = PRESS ∨ state = REPEAT_PRESS)) RELEASE := by
  cases state with
  | PRESS =>
      intro part opened
      cases opened
      exact .long
  | INVALID_STA => exact unsaid_invalid LONG_BUTTON
  | REPEAT_PRESS | RELEASE | REPEAT_RELEASE =>
      intro part opened
      cases opened

theorem combined_releases (state : ButtonState) :
    Releases COMBINED_LONG_BUTTON state (decide (state = PRESS)) RELEASE := by
  cases state with
  | PRESS =>
      intro part opened
      cases opened
      exact .combined
  | INVALID_STA => exact unsaid_invalid COMBINED_LONG_BUTTON
  | REPEAT_PRESS | RELEASE | REPEAT_RELEASE =>
      intro part opened
      cases opened

theorem repeatLong_releases (state : ButtonState) :
    Releases REPEAT_LONG_BUTTON state
      (decide (state = PRESS ∨ state = REPEAT_PRESS)) RELEASE := by
  cases state with
  | PRESS =>
      intro part opened
      cases opened
      exact .repeatLong 0
  | REPEAT_PRESS =>
      intro part opened
      cases opened with
      | repeatPress count => exact .repeatLong (count + 1)
  | INVALID_STA => exact unsaid_invalid REPEAT_LONG_BUTTON
  | RELEASE | REPEAT_RELEASE =>
      intro part opened
      cases opened

theorem shortLong_releases :
    Releases SHORT_LONG_BUTTON INVALID_STA true RELEASE := by
  intro part opened
  cases opened
  exact .shortLong

theorem shortLong_repeatReleases (state : ButtonState) :
    Releases SHORT_LONG_BUTTON state (decide (state = PRESS))
      REPEAT_RELEASE := by
  cases state with
  | PRESS =>
      intro part opened
      cases opened
      exact .shortLongRepeat
  | INVALID_STA => exact unsaid_invalid SHORT_LONG_BUTTON
  | REPEAT_PRESS | RELEASE | REPEAT_RELEASE =>
      intro part opened
      cases opened

theorem Opened.pressed {func : ButtonType} {part : List ButtonState}
    (timed : func ≠ SHORT_BUTTON) (opened : Opened func INVALID_STA part) :
    Opened func PRESS (part ++ [PRESS]) := by
  cases opened
  exact .press func timed

theorem Opened.repeated {state : ButtonState} {part : List ButtonState}
    (opened : Opened REPEAT_LONG_BUTTON state part)
    (said : state ≠ INVALID_STA) :
    Opened REPEAT_LONG_BUTTON REPEAT_PRESS (part ++ [REPEAT_PRESS]) := by
  cases opened with
  | invalid => exact absurd rfl said
  | press => exact .repeatPress 0
  | repeatPress count =>
      rw [List.cons_append, ← List.replicate_succ']
      exact .repeatPress (count + 1)

end XR872.Button
