/-
The button module: one thread, one one-shot timer and the binary semaphore
that the buttons and the timer signal.

The model is cut where the thread can be interrupted between two accesses to
what the timer callback shares with it. A command to the timer takes effect at
the call, and succeeds.
-/

import XR872.Button.Calibration

namespace XR872.Button

open Runs

inductive ButtonType where
  | SHORT_BUTTON
  | LONG_BUTTON
  | SHORT_LONG_BUTTON
  | COMBINED_LONG_BUTTON
  | REPEAT_LONG_BUTTON
deriving DecidableEq, Repr

inductive ButtonState where
  | PRESS
  | RELEASE
  | REPEAT_PRESS
  | REPEAT_RELEASE
  | INVALID_STA
deriving DecidableEq, Repr

open ButtonType ButtonState

/-- The constant part of `button_obj`. -/
structure ButtonObj where
  idMask : BitVec 32
  en : Bool
  func : ButtonType
deriving DecidableEq, Repr

def getButtonsObj (buttons : List ButtonObj) (idMask : BitVec 32) :
    Option ButtonObj :=
  buttons.find? fun obj => obj.idMask == idMask

/-- The loop that counts the ones of a mask, for a mask of `bits` bits. -/
def countOnes : (bits : Nat) → (num : BitVec 32) → Nat
  | 0, _ => 0
  | bits + 1, num =>
      (if num &&& 1 ≠ 0 then 1 else 0) + countOnes bits (num >>> 1)

def ButtonType.Admits (func : ButtonType) (count : Nat) : Prop :=
  match func with
  | COMBINED_LONG_BUTTON => ¬ count < 2
  | _ => count = 1

instance (func : ButtonType) (count : Nat) : Decidable (func.Admits count) := by
  cases func <;> unfold ButtonType.Admits <;> infer_instance

/-- The list `buttons_head`, of objects that the create functions made and that
are started. -/
structure CreatedButtons where
  list : List ButtonObj
  admitted : ∀ obj ∈ list, obj.func.Admits (countOnes 32 obj.idMask)
  distinct : (list.map ButtonObj.idMask).Nodup
  started : ∀ obj ∈ list, obj.en = true

theorem getButtonsObj_eq_none {buttons : List ButtonObj} {idMask : BitVec 32} :
    getButtonsObj buttons idMask = none ↔
      ∀ obj ∈ buttons, obj.idMask ≠ idMask := by
  constructor
  · intro absent obj member same
    exact List.find?_eq_none.mp absent obj member (beq_iff_eq.mpr same)
  · intro different
    apply List.find?_eq_none.mpr
    intro obj member same
    exact different obj member (beq_iff_eq.mp same)

/-- What the create functions have in common, with the start of the object. -/
def createButton (func : ButtonType) (buttons : CreatedButtons)
    (idMask : BitVec 32) : Option CreatedButtons :=
  if admitted : func.Admits (countOnes 32 idMask) then
    match absent : getButtonsObj buttons.list idMask with
    | some _ => none
    | none =>
        some
          { list := buttons.list ++ [⟨idMask, true, func⟩]
            admitted := by
              intro obj member
              rcases List.mem_append.mp member with earlier | last
              · exact buttons.admitted obj earlier
              · rw [List.mem_singleton.mp last]
                exact admitted
            distinct := by
              rw [List.map_append, List.nodup_append]
              refine ⟨buttons.distinct, List.nodup_singleton _, ?_⟩
              intro earlier present last member same
              obtain ⟨obj, listed, rfl⟩ := List.mem_map.mp present
              rw [List.map_singleton, List.mem_singleton] at member
              exact getButtonsObj_eq_none.mp absent obj listed (same.trans member)
            started := by
              intro obj member
              rcases List.mem_append.mp member with earlier | last
              · exact buttons.started obj earlier
              · rw [List.mem_singleton.mp last] }
  else none

def createShortButton := createButton SHORT_BUTTON

def createLongButton := createButton LONG_BUTTON

def createShortLongButton := createButton SHORT_LONG_BUTTON

def createCombinedLongButton := createButton COMBINED_LONG_BUTTON

def createRepeatLongButton := createButton REPEAT_LONG_BUTTON

/-- How far a call of `buttons_timer_cb` is: it releases the semaphore first,
and sets the flag then. -/
inductive TimerCallback where
  | idle
  | expired
  | signalled
deriving DecidableEq, Repr

/-- `buttons_timer` with its callback and `buttons_timer_time_up`. The last two
fields only record what happened. -/
structure ButtonsTimer where
  active : Bool
  callback : TimerCallback
  timeUp : Bool
  /-- The object whose press started the timer. -/
  starter : Option ButtonObj
  /-- The starter at the last expiry since a press, and whether its mask was the
  last button word read. -/
  expiry : Option (ButtonObj × Bool)
deriving DecidableEq, Repr

/-- Who called a release routine: the thread itself, or the press of a
combination. -/
inductive ReleaseCaller where
  | process (obj : Option ButtonObj)
  | combined (obj : ButtonObj)
deriving DecidableEq, Repr

/-- Where the thread is. -/
inductive ButtonsStage where
  /-- At the semaphore. -/
  | waiting
  /-- Before the test of the flag. -/
  | check
  /-- In the event of a repeat button, before `OS_TimerChangePeriod`. -/
  | eventChange
  /-- The same, before `OS_TimerStart`. -/
  | eventStart
  /-- After the event, before the flag is cleared. -/
  | eventClear
  /-- Before `low_level_get_state`. -/
  | read
  /-- In a release routine, before `OS_TimerIsActive`. -/
  | isActive (obj : ButtonObj) (caller : ReleaseCaller)
  /-- In a release routine, before `OS_TimerStop`. -/
  | stop (obj : ButtonObj) (caller : ReleaseCaller)
  /-- In a release routine, before the flag is cleared. -/
  | clear (obj : ButtonObj) (caller : ReleaseCaller)
  /-- In a press routine, before `OS_TimerChangePeriod`. -/
  | change (obj : ButtonObj)
  /-- The same, before `OS_TimerStart`. -/
  | start (obj : ButtonObj)
deriving DecidableEq, Repr

structure Buttons where
  /-- What `low_level_get_state` would read. -/
  word : BitVec 32
  /-- The count of `buttons_sem`. -/
  sem : Bool
  timer : ButtonsTimer
  prevButtonsState : BitVec 32
  currentTiggeredObj : Option ButtonObj
  /-- The state of the object with this mask. -/
  state : BitVec 32 → ButtonState
  /-- The callbacks of the object with this mask. -/
  callbacks : BitVec 32 → List ButtonState
  stage : ButtonsStage
  /-- Each callback with PRESS, with the last expiry before it. -/
  presses : List (ButtonObj × Option (ButtonObj × Bool))

def buttonsInit : Buttons :=
  { word := ALL_BUTTONS_RELEASE
    sem := false
    timer :=
      { active := false, callback := .idle, timeUp := false, starter := none
        expiry := none }
    prevButtonsState := 0
    currentTiggeredObj := none
    state := fun _ => INVALID_STA
    callbacks := fun _ => []
    stage := .waiting
    presses := [] }

namespace ButtonsTimer

def expire (timer : ButtonsTimer) (prevButtonsState : BitVec 32) :
    ButtonsTimer :=
  if timer.active ∧ timer.callback = .idle then
    { timer with
      active := false
      callback := .expired
      expiry := timer.starter.map fun obj =>
        (obj, decide (prevButtonsState = obj.idMask)) }
  else timer

/-- The next statement of `buttons_timer_cb`, for the timer. -/
def advance (timer : ButtonsTimer) : ButtonsTimer :=
  match timer.callback with
  | .idle => timer
  | .expired => { timer with callback := .signalled }
  | .signalled =>
      { timer with
        callback := .idle
        timeUp := true }

end ButtonsTimer

namespace Buttons

def setState (s : Buttons) (obj : ButtonObj) (state : ButtonState) : Buttons :=
  { s with state := Function.update s.state obj.idMask state }

def clearTimeUp (s : Buttons) : Buttons :=
  { s with timer.timeUp := false }

/-- The object enters the state and is called back with it. -/
def deliver (s : Buttons) (obj : ButtonObj) (state : ButtonState) : Buttons :=
  { s.setState obj state with
    callbacks := Function.update s.callbacks obj.idMask
      (s.callbacks obj.idMask ++ [state])
    presses :=
      if state = PRESS then s.presses ++ [(obj, s.timer.expiry)] else s.presses }

/-- The last statements of every release routine: a callback in some states,
and then the state is invalid. -/
def releaseEnd (s : Buttons) (obj : ButtonObj) (buttonsState : BitVec 32)
    (due : ButtonState → Bool) (event : ButtonState) : Buttons :=
  let s := if due (s.state obj.idMask) then s.deliver obj event else s
  let s := s.setState obj INVALID_STA
  if buttonsState = ALL_BUTTONS_RELEASE then
    { s with currentTiggeredObj := none }
  else s

def shortButtonRelease (s : Buttons) (obj : ButtonObj)
    (buttonsState : BitVec 32) : Buttons :=
  s.releaseEnd obj buttonsState
    (fun state => buttonsState = ALL_BUTTONS_RELEASE ∧ state = PRESS) RELEASE

/-- `long_button_release` after the flag is cleared. -/
def longButtonRelease (s : Buttons) (obj : ButtonObj)
    (buttonsState : BitVec 32) : Buttons :=
  s.releaseEnd obj buttonsState
    (fun state => state = PRESS ∨ state = REPEAT_PRESS) RELEASE

/-- `short_long_button_release` when the timer was active, after the flag is
cleared. -/
def shortLongButtonRelease (s : Buttons) (obj : ButtonObj)
    (buttonsState : BitVec 32) : Buttons :=
  s.releaseEnd obj buttonsState (fun _ => true) RELEASE

/-- `short_long_button_release` when the timer was not active. -/
def shortLongButtonRepeatRelease (s : Buttons) (obj : ButtonObj)
    (buttonsState : BitVec 32) : Buttons :=
  s.releaseEnd obj buttonsState (fun state => state = PRESS) REPEAT_RELEASE

def repeatLongButtonRelease := longButtonRelease

/-- `combined_long_button_release` after the flag is cleared. -/
def combinedLongButtonRelease (s : Buttons) (obj : ButtonObj)
    (buttonsState : BitVec 32) : Buttons :=
  s.releaseEnd obj buttonsState (fun state => state = PRESS) RELEASE

/-- The release of an object with a timer, after the flag is cleared. -/
def timedButtonRelease (s : Buttons) (obj : ButtonObj)
    (buttonsState : BitVec 32) : Buttons :=
  match obj.func with
  -- the release of a short button has no such part
  | SHORT_BUTTON => s
  | LONG_BUTTON => s.longButtonRelease obj buttonsState
  | SHORT_LONG_BUTTON => s.shortLongButtonRelease obj buttonsState
  | COMBINED_LONG_BUTTON => s.combinedLongButtonRelease obj buttonsState
  | REPEAT_LONG_BUTTON => s.repeatLongButtonRelease obj buttonsState

def shortButtonPress (s : Buttons) (obj : ButtonObj) : Buttons :=
  match s.currentTiggeredObj with
  | some _ =>
      { s with stage := .waiting }
  | none =>
      { s.setState obj PRESS with
        currentTiggeredObj := some obj
        stage := .waiting }

def longButtonPress (s : Buttons) (obj : ButtonObj) : Buttons :=
  match s.currentTiggeredObj with
  | some _ =>
      { s with stage := .waiting }
  | none =>
      { s with stage := .change obj }

def shortLongButtonPress := longButtonPress

def repeatLongButtonPress := longButtonPress

def combinedLongButtonPress (s : Buttons) (obj : ButtonObj) : Buttons :=
  match s.currentTiggeredObj with
  | none =>
      { s with stage := .change obj }
  | some current =>
      match current.func with
      | SHORT_BUTTON =>
          { s.shortButtonRelease current obj.idMask with stage := .change obj }
      | LONG_BUTTON | COMBINED_LONG_BUTTON =>
          { s with stage := .stop current (.combined obj) }
      | SHORT_LONG_BUTTON =>
          { s with stage := .isActive current (.combined obj) }
      | REPEAT_LONG_BUTTON =>
          { s with stage := .change obj }

/-- The end of the turn of `buttons_process_thread`, with the object found. -/
def press (s : Buttons) (obj : Option ButtonObj) : Buttons :=
  match obj with
  | none =>
      { s with stage := .waiting }
  | some obj =>
      if ¬ obj.en then
        { s with stage := .waiting }
      else
        match obj.func with
        | SHORT_BUTTON => s.shortButtonPress obj
        | LONG_BUTTON => s.longButtonPress obj
        | SHORT_LONG_BUTTON => s.shortLongButtonPress obj
        | COMBINED_LONG_BUTTON => s.combinedLongButtonPress obj
        | REPEAT_LONG_BUTTON => s.repeatLongButtonPress obj

end Buttons

def ReleaseCaller.buttonsState (caller : ReleaseCaller) (s : Buttons) :
    BitVec 32 :=
  match caller with
  | .process _ => s.prevButtonsState
  | .combined obj => obj.idMask

namespace Buttons

/-- Back from the release of an object. A combination that was released by
another one ends the turn. -/
def resume (s : Buttons) (released : ButtonObj) (caller : ReleaseCaller) :
    Buttons :=
  match caller with
  | .process obj => s.press obj
  | .combined obj =>
      if released.func = COMBINED_LONG_BUTTON then
        { s with stage := .waiting }
      else
        { s with stage := .change obj }

/-- From `release_current_tiggered_obj` to the end of the turn, or to the first
access to the timer. -/
def releaseCurrentTiggeredObj (s : Buttons) (found : Option ButtonObj) :
    Buttons :=
  match s.currentTiggeredObj with
  | none => s.press found
  | some obj =>
      match obj.func with
      | SHORT_BUTTON =>
          (s.shortButtonRelease obj s.prevButtonsState).press found
      | LONG_BUTTON | COMBINED_LONG_BUTTON | REPEAT_LONG_BUTTON =>
          { s with stage := .stop obj (.process found) }
      | SHORT_LONG_BUTTON =>
          { s with stage := .isActive obj (.process found) }

/-- `button_timer_event` up to the first access to the timer. -/
def buttonTimerEvent (s : Buttons) : Buttons :=
  match s.currentTiggeredObj with
  | none =>
      { s with stage := .eventClear }
  | some obj =>
      match obj.func with
      | LONG_BUTTON | SHORT_LONG_BUTTON | COMBINED_LONG_BUTTON =>
          { s.deliver obj PRESS with stage := .eventClear }
      | REPEAT_LONG_BUTTON =>
          let state :=
            match s.state obj.idMask with
            | INVALID_STA => PRESS
            | PRESS | REPEAT_PRESS => REPEAT_PRESS
            | other => other
          { s.deliver obj state with stage := .eventChange }
      | SHORT_BUTTON =>
          { s with stage := .eventClear }

/-- One step of `buttons_process_thread`. -/
def processThread (buttons : List ButtonObj) (s : Buttons) : Buttons :=
  match s.stage with
  | .waiting =>
      if s.sem then
        { s with
          sem := false
          stage := .check }
      else s
  | .check =>
      if s.timer.timeUp then s.buttonTimerEvent
      else { s with stage := .read }
  | .eventChange =>
      { s with
        timer.active := true
        timer.starter := none
        stage := .eventStart }
  | .eventStart =>
      { s with
        timer.active := true
        stage := .eventClear }
  | .eventClear =>
      { s.clearTimeUp with stage := .waiting }
  | .read =>
      if s.prevButtonsState = s.word then
        { s with stage := .waiting }
      else
        let s := { s with prevButtonsState := s.word }
        s.releaseCurrentTiggeredObj (getButtonsObj buttons s.word)
  | .isActive obj caller =>
      if s.timer.active then
        { s with stage := .stop obj caller }
      else
        (s.shortLongButtonRepeatRelease obj (caller.buttonsState s)).resume obj
          caller
  | .stop obj caller =>
      { s with
        timer.active := false
        stage := .clear obj caller }
  | .clear obj caller =>
      let s := s.clearTimeUp
      (s.timedButtonRelease obj (caller.buttonsState s)).resume obj caller
  | .change obj =>
      { s with
        timer.active := true
        timer.starter := some obj
        timer.expiry := none
        stage := .start obj }
  | .start obj =>
      { s.setState obj INVALID_STA with
        timer.active := true
        currentTiggeredObj := some obj
        stage := .waiting }

end Buttons

/-- What can happen next. -/
inductive ButtonsInput where
  /-- The buttons change, and their interrupt releases the semaphore. -/
  | change (word : BitVec 32)
  /-- The time of the timer is up. -/
  | expire
  /-- One statement of `buttons_timer_cb`. -/
  | callback
  /-- One step of the thread. -/
  | thread
deriving DecidableEq, Repr

def buttonsStep (buttons : List ButtonObj) (s : Buttons) (input : ButtonsInput) :
    Buttons :=
  match input with
  | .change word =>
      { s with
        word := word
        sem := true }
  | .expire =>
      { s with timer := s.timer.expire s.prevButtonsState }
  | .callback =>
      { s with
        timer := s.timer.advance
        sem := s.sem || decide (s.timer.callback = .expired) }
  | .thread => s.processThread buttons

end XR872.Button
