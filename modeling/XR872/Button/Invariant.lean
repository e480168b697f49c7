/-
What is promised of the buttons, and what clean steps keep.

A step is not clean where the thread answers an expiry while a change of the
buttons has no signal of its own left, where it forgets the expiry while the
callback of the timer is still going on, and where the time of the timer is up
between the two commands that start it.
-/

import XR872.Button.Pattern

namespace XR872.Button

open Runs ButtonType ButtonState

structure ButtonPromise (buttons : CreatedButtons) (s : Buttons) : Prop where
  pattern : ∀ obj ∈ buttons.list, Repeats obj.func (s.callbacks obj.idMask)
  pressed : ∀ press ∈ s.presses, press.2 = some (press.1, true)
  startsClean : s.stage = .waiting → s.sem = false →
    s.word = ALL_BUTTONS_RELEASE →
    s.currentTiggeredObj = none ∧ s.timer.active = false ∧
      s.timer.timeUp = false

/-- The step does not merge an expiry with something else. -/
def ButtonsClean (s : Buttons) (input : ButtonsInput) : Prop :=
  match input, s.stage with
  | .thread, .check =>
      s.timer.timeUp = true → s.word = s.prevButtonsState ∨ s.sem = true
  | .thread, .isActive _ _ =>
      s.timer.active = false →
        s.timer.callback = .idle ∧ s.timer.timeUp = false
  | .thread, .clear _ _ => s.timer.callback = .idle
  | .expire, .start obj => obj.func = REPEAT_LONG_BUTTON
  | _, _ => True

instance (s : Buttons) (input : ButtonsInput) :
    Decidable (ButtonsClean s input) := by
  unfold ButtonsClean
  split <;> infer_instance

structure ButtonsTimer.Quiet (timer : ButtonsTimer) : Prop where
  active : timer.active = false
  callback : timer.callback = .idle
  timeUp : timer.timeUp = false

structure ButtonsTimer.Once (timer : ButtonsTimer) : Prop where
  active : timer.active = true →
    timer.callback = .idle ∧ timer.timeUp = false
  callback : timer.callback ≠ .idle → timer.timeUp = false

structure ButtonsTimer.Own (timer : ButtonsTimer) (obj : ButtonObj) : Prop where
  starter : timer.starter = some obj
  expiry : timer.callback ≠ .idle ∨ timer.timeUp = true →
    timer.expiry = some (obj, true)

structure Passes (prev : BitVec 32) (timer next : ButtonsTimer) : Prop where
  quiet : timer.Quiet → next.Quiet
  once : timer.Once → next.Once
  own : ∀ obj, prev = obj.idMask → timer.Own obj → next.Own obj

/-- The timer before the flag is cleared, seen as it will be. -/
abbrev ButtonsTimer.cleared (timer : ButtonsTimer) : ButtonsTimer :=
  { timer with timeUp := false }

theorem ButtonsTimer.Once.cleared {timer : ButtonsTimer} (once : timer.Once) :
    timer.cleared.Once :=
  { active := fun active => ⟨(once.active active).1, rfl⟩
    callback := fun _ => rfl }

theorem ButtonsTimer.Once.quiet {timer : ButtonsTimer} (once : timer.Once)
    (timeUp : timer.timeUp = true) : timer.cleared.Quiet := by
  refine { active := ?_, callback := ?_, timeUp := rfl }
  · by_contra active
    rw [(once.active (eq_true_of_ne_false active)).2] at timeUp
    cases timeUp
  · by_contra going
    rw [once.callback going] at timeUp
    cases timeUp

theorem ButtonsTimer.Own.cleared {timer : ButtonsTimer} {obj : ButtonObj}
    (own : timer.Own obj) : timer.cleared.Own obj :=
  { starter := own.starter
    expiry := by
      intro underway
      rcases underway with going | impossible
      · exact own.expiry (.inl going)
      · cases impossible }

theorem expire_passes (prev : BitVec 32) (timer : ButtonsTimer) :
    Passes prev timer (timer.expire prev) := by
  unfold ButtonsTimer.expire
  split
  · rename_i due
    exact
      { quiet := by
          intro quiet
          rw [quiet.active] at due
          exact absurd due.1 Bool.false_ne_true
        once := by
          intro once
          have unset := (once.active due.1).2
          exact
            { active := fun impossible => absurd impossible Bool.false_ne_true
              callback := fun _ => unset }
        own := by
          intro obj same own
          refine { starter := own.starter, expiry := fun _ => ?_ }
          change timer.starter.map _ = _
          rw [own.starter, Option.map_some, decide_eq_true same] }
  · exact { quiet := id, once := id, own := fun _ _ own => own }

theorem advance_passes (prev : BitVec 32) (timer : ButtonsTimer) :
    Passes prev timer timer.advance := by
  unfold ButtonsTimer.advance
  cases at_ : timer.callback with
  | idle => exact { quiet := id, once := id, own := fun _ _ own => own }
  | expired =>
      have going : timer.callback ≠ .idle := by rw [at_]; decide
      exact
        { quiet := fun quiet => absurd quiet.callback going
          once := by
            intro once
            exact
              { active := fun active => absurd (once.active active).1 going
                callback := fun _ => once.callback going }
          own := by
            intro obj _ own
            exact
              { starter := own.starter
                expiry := fun _ => own.expiry (.inl going) } }
  | signalled =>
      have going : timer.callback ≠ .idle := by rw [at_]; decide
      exact
        { quiet := fun quiet => absurd quiet.callback going
          once := by
            intro once
            exact
              { active := fun active => absurd (once.active active).1 going
                callback := fun impossible => absurd rfl impossible }
          own := by
            intro obj _ own
            exact
              { starter := own.starter
                expiry := fun _ => own.expiry (.inl going) } }

theorem expire_cleared_passes (prev : BitVec 32) (timer : ButtonsTimer) :
    Passes prev timer.cleared (timer.expire prev).cleared := by
  have same : (timer.expire prev).cleared = timer.cleared.expire prev := by
    unfold ButtonsTimer.expire
    split <;> rfl
  rw [same]
  exact expire_passes prev timer.cleared

theorem advance_cleared_passes (prev : BitVec 32) (timer : ButtonsTimer) :
    Passes prev timer.cleared timer.advance.cleared := by
  have same : timer.advance.cleared = timer.cleared.advance.cleared := by
    unfold ButtonsTimer.advance
    cases timer.callback <;> rfl
  have passes := advance_passes prev timer.cleared
  rw [same]
  exact
    { quiet := by
        intro quiet
        have next := passes.quiet quiet
        exact { next with timeUp := rfl }
      once := fun once => (passes.once once).cleared
      own := fun obj same own => (passes.own obj same own).cleared }

structure Awaits (timer : ButtonsTimer) (prev : BitVec 32) (obj : ButtonObj)
    (state : ButtonState) : Prop where
  timed : obj.func ≠ SHORT_BUTTON
  last : prev = obj.idMask
  once : obj.func ≠ REPEAT_LONG_BUTTON → timer.Once ∧ state = INVALID_STA
  own : state = INVALID_STA → timer.Own obj

structure Settled (timer : ButtonsTimer) (prev : BitVec 32)
    (current : Option ButtonObj) (state : BitVec 32 → ButtonState) : Prop where
  none_ : current = none → timer.Quiet
  some_ : ∀ obj, current = some obj →
    timer.Quiet ∨ Awaits timer prev obj (state obj.idMask)
  released : prev = 0 → current = none

def Repeating (prev : BitVec 32) (current : Option ButtonObj)
    (state : BitVec 32 → ButtonState) : Prop :=
  ∃ obj, current = some obj ∧ obj.func = REPEAT_LONG_BUTTON ∧
    prev = obj.idMask ∧ state obj.idMask ≠ INVALID_STA

structure Pressed (buttons : CreatedButtons) (prev : BitVec 32)
    (obj : ButtonObj) : Prop where
  member : obj ∈ buttons.list
  mask : obj.idMask = prev
  timed : obj.func ≠ SHORT_BUTTON

def Called (buttons : CreatedButtons) (prev : BitVec 32)
    (caller : ReleaseCaller) : Prop :=
  match caller with
  | .process found => found = getButtonsObj buttons.list prev
  | .combined obj => Pressed buttons prev obj

def Buttons.At (buttons : CreatedButtons) (s : Buttons) (stage : ButtonsStage) :
    Prop :=
  let settled (timer : ButtonsTimer) :=
    Settled timer s.prevButtonsState s.currentTiggeredObj s.state
  let releasing (obj : ButtonObj) (caller : ReleaseCaller) :=
    s.currentTiggeredObj = some obj ∧
      Called buttons s.prevButtonsState caller ∧ obj.func ≠ SHORT_BUTTON ∧
      (obj.func = SHORT_LONG_BUTTON → s.state obj.idMask = INVALID_STA)
  let pressing (obj : ButtonObj) :=
    Pressed buttons s.prevButtonsState obj ∧
      ∀ mask, s.state mask = INVALID_STA
  match stage with
  | .waiting | .check | .read => settled s.timer
  | .eventChange | .eventStart =>
      settled s.timer ∧
        Repeating s.prevButtonsState s.currentTiggeredObj s.state
  | .eventClear => settled s.timer.cleared
  | .isActive obj caller =>
      s.currentTiggeredObj = some obj ∧
        Called buttons s.prevButtonsState caller ∧
        obj.func = SHORT_LONG_BUTTON ∧
        (s.timer.Quiet ∨ s.state obj.idMask = INVALID_STA)
  | .stop obj caller => releasing obj caller
  | .clear obj caller => releasing obj caller ∧ s.timer.active = false
  | .change obj => pressing obj ∧ s.timer.Quiet
  | .start obj =>
      pressing obj ∧ s.timer.Own obj ∧
        (obj.func ≠ REPEAT_LONG_BUTTON →
          s.timer.callback = .idle ∧ s.timer.timeUp = false)

structure Buttons.Records (buttons : CreatedButtons) (s : Buttons) : Prop where
  fits : ∀ obj ∈ buttons.list,
    Fits obj.func (s.state obj.idMask) (s.callbacks obj.idMask)
  pressed : ∀ press ∈ s.presses, press.2 = some (press.1, true)
  known : ∀ obj, s.currentTiggeredObj = some obj → obj ∈ buttons.list
  lone : ∀ mask, s.state mask ≠ INVALID_STA →
    ∃ obj, s.currentTiggeredObj = some obj ∧ obj.idMask = mask

def Buttons.Level (s : Buttons) : Prop :=
  s.word = s.prevButtonsState ∨ s.sem = true

structure Buttons.Sound (buttons : CreatedButtons) (s : Buttons) : Prop where
  records : s.Records buttons
  place : s.At buttons s.stage
  level : s.stage ≠ .check → s.stage ≠ .read → s.Level

variable {buttons : CreatedButtons} {s : Buttons}

theorem Settled.passes {timer next : ButtonsTimer} {prev : BitVec 32}
    {current : Option ButtonObj} {state : BitVec 32 → ButtonState}
    (settled : Settled timer prev current state)
    (passes : Passes prev timer next) : Settled next prev current state :=
  { none_ := fun absent => passes.quiet (settled.none_ absent)
    some_ := by
      intro obj here
      rcases settled.some_ obj here with quiet | awaits
      · exact .inl (passes.quiet quiet)
      · refine .inr { awaits with once := ?_, own := ?_ }
        · intro func
          exact ⟨passes.once (awaits.once func).1, (awaits.once func).2⟩
        · intro invalid
          exact passes.own obj awaits.last (awaits.own invalid)
    released := settled.released }

theorem Repeating.settled {prev : BitVec 32} {current : Option ButtonObj}
    {state : BitVec 32 → ButtonState}
    (repeating : Repeating prev current state) (timer : ButtonsTimer)
    (released : prev = 0 → current = none) :
    Settled timer prev current state := by
  obtain ⟨told, here, func, last, said⟩ := repeating
  refine { none_ := ?_, some_ := ?_, released := released }
  · intro absent
    rw [here] at absent
    cases absent
  · intro obj same
    rw [here, Option.some.injEq] at same
    subst same
    right
    exact
      { timed := by rw [func]; decide
        last := last
        once := fun other => absurd func other
        own := fun invalid => absurd invalid said }

theorem Settled.clear {timer : ButtonsTimer} {prev : BitVec 32}
    {current : Option ButtonObj} {state : BitVec 32 → ButtonState}
    (settled : Settled timer prev current state) :
    Settled timer.cleared prev current state := by
  refine settled.passes { quiet := ?_, once := ?_, own := ?_ }
  · exact fun quiet => { quiet with timeUp := rfl }
  · exact ButtonsTimer.Once.cleared
  · exact fun _ _ => ButtonsTimer.Own.cleared

namespace CreatedButtons

theorem eq_of_mask {left right : ButtonObj} (first : left ∈ buttons.list)
    (second : right ∈ buttons.list) (same : left.idMask = right.idMask) :
    left = right :=
  List.inj_on_of_nodup_map buttons.distinct first second same

theorem mask_ne_zero {obj : ButtonObj} (member : obj ∈ buttons.list) :
    obj.idMask ≠ 0 := by
  intro zero
  have admitted := buttons.admitted obj member
  rw [zero] at admitted
  have none_ : countOnes 32 0 = 0 := by decide
  rw [none_] at admitted
  cases func : obj.func with
  | COMBINED_LONG_BUTTON =>
      rw [func] at admitted
      exact admitted Nat.zero_lt_two
  | SHORT_BUTTON | LONG_BUTTON | SHORT_LONG_BUTTON | REPEAT_LONG_BUTTON =>
      rw [func] at admitted
      cases admitted

theorem found {mask : BitVec 32} {obj : ButtonObj}
    (found : getButtonsObj buttons.list mask = some obj) :
    obj ∈ buttons.list ∧ obj.idMask = mask :=
  ⟨List.mem_of_find?_eq_some found,
    beq_iff_eq.mp (List.find?_some found :)⟩

end CreatedButtons

namespace Buttons

theorem Records.of_eq {next : Buttons} (records : s.Records buttons)
    (state : next.state = s.state) (callbacks : next.callbacks = s.callbacks)
    (presses : next.presses = s.presses)
    (current : next.currentTiggeredObj = s.currentTiggeredObj) :
    next.Records buttons :=
  { fits := by rw [state, callbacks]; exact records.fits
    pressed := by rw [presses]; exact records.pressed
    known := by rw [current]; exact records.known
    lone := by rw [state, current]; exact records.lone }

end Buttons

/-! ### Steps outside the thread -/

theorem change_sound (sound : s.Sound buttons) (word : BitVec 32) :
    (buttonsStep buttons.list s (.change word)).Sound buttons :=
  { records := sound.records.of_eq rfl rfl rfl rfl
    place := sound.place
    level := fun _ _ => .inr rfl }

theorem Buttons.At.passes {next : ButtonsTimer} {stage : ButtonsStage}
    (place : s.At buttons stage)
    (passes : Passes s.prevButtonsState s.timer next)
    (cleared : Passes s.prevButtonsState s.timer.cleared next.cleared)
    (stopped : s.timer.active = false → next.active = false)
    (fresh : ∀ obj, stage = .start obj → obj.func ≠ REPEAT_LONG_BUTTON →
      s.timer.callback = .idle ∧ s.timer.timeUp = false →
      next.callback = .idle ∧ next.timeUp = false) :
    Buttons.At buttons { s with timer := next } stage := by
  cases stage with
  | waiting | check | read => exact Settled.passes place passes
  | eventChange | eventStart => exact ⟨place.1.passes passes, place.2⟩
  | eventClear => exact Settled.passes place cleared
  | isActive obj caller =>
      obtain ⟨here, called, func, quiet | invalid⟩ := place
      · exact ⟨here, called, func, .inl (passes.quiet quiet)⟩
      · exact ⟨here, called, func, .inr invalid⟩
  | stop obj caller => exact place
  | clear obj caller => exact ⟨place.1, stopped place.2⟩
  | change obj => exact ⟨place.1, passes.quiet place.2⟩
  | start obj =>
      obtain ⟨⟨pressed, invalid⟩, own, unset⟩ := place
      refine ⟨⟨pressed, invalid⟩, ?_, ?_⟩
      · exact passes.own obj pressed.mask.symm own
      · exact fun func => fresh obj rfl func (unset func)

theorem expire_sound (sound : s.Sound buttons)
    (clean : ButtonsClean s .expire) :
    (buttonsStep buttons.list s .expire).Sound buttons := by
  refine
    { records := sound.records.of_eq rfl rfl rfl rfl
      place := ?_
      level := sound.level }
  refine sound.place.passes (expire_passes _ _) (expire_cleared_passes _ _) ?_
    ?_
  · intro inactive
    unfold ButtonsTimer.expire
    rw [inactive, if_neg (fun due => absurd due.1 Bool.false_ne_true)]
    exact inactive
  · intro obj at_ func
    unfold ButtonsClean at clean
    rw [at_] at clean
    exact absurd clean func

theorem callback_sound (sound : s.Sound buttons) :
    (buttonsStep buttons.list s .callback).Sound buttons := by
  refine
    { records := sound.records.of_eq rfl rfl rfl rfl
      place := ?_
      level := ?_ }
  · refine sound.place.passes (advance_passes _ _) (advance_cleared_passes _ _)
      ?_ ?_
    · intro inactive
      change s.timer.advance.active = false
      unfold ButtonsTimer.advance
      cases s.timer.callback <;> exact inactive
    · intro obj _ _ ⟨idle, unset⟩
      change s.timer.advance.callback = .idle ∧ s.timer.advance.timeUp = false
      unfold ButtonsTimer.advance
      rw [idle]
      exact ⟨idle, unset⟩
  · intro notCheck notRead
    rcases sound.level notCheck notRead with same | signalled
    · exact .inl same
    · right
      change (s.sem || _) = true
      rw [signalled, Bool.true_or]

/-! ### Releases and presses -/

namespace Buttons

theorem Records.deliver {obj : ButtonObj} {event : ButtonState}
    (records : s.Records buttons) (here : s.currentTiggeredObj = some obj)
    (fits : Fits obj.func event (s.callbacks obj.idMask ++ [event]))
    (expiry : event = PRESS → s.timer.expiry = some (obj, true)) :
    (s.deliver obj event).Records buttons := by
  refine { fits := ?_, pressed := ?_, known := records.known, lone := ?_ }
  · intro other member
    change Fits _ (Function.update s.state obj.idMask event other.idMask)
      (Function.update s.callbacks obj.idMask _ other.idMask)
    by_cases same : other.idMask = obj.idMask
    · have equal :=
        CreatedButtons.eq_of_mask member (records.known obj here) same
      subst equal
      rw [Function.update_self, Function.update_self]
      exact fits
    · rw [Function.update_of_ne same, Function.update_of_ne same]
      exact records.fits other member
  · intro press member
    change press ∈ if event = PRESS then _ else _ at member
    by_cases pressed : event = PRESS
    · rw [if_pos pressed] at member
      rcases List.mem_append.mp member with earlier | last
      · exact records.pressed press earlier
      · rw [List.mem_singleton.mp last]
        exact expiry pressed
    · rw [if_neg pressed] at member
      exact records.pressed press member
  · intro mask said
    change Function.update s.state obj.idMask event mask ≠ _ at said
    by_cases same : mask = obj.idMask
    · exact ⟨obj, here, same.symm⟩
    · rw [Function.update_of_ne same] at said
      exact records.lone mask said

theorem Records.setState {obj : ButtonObj} {state : ButtonState}
    (records : s.Records buttons) (member : obj ∈ buttons.list)
    (fits : Fits obj.func state (s.callbacks obj.idMask))
    (current : Option ButtonObj)
    (known : ∀ other, current = some other → other ∈ buttons.list)
    (lone : ∀ mask, (s.setState obj state).state mask ≠ INVALID_STA →
      ∃ other, current = some other ∧ other.idMask = mask) :
    Records buttons
      { s.setState obj state with currentTiggeredObj := current } := by
  refine
    { fits := ?_, pressed := records.pressed, known := known, lone := lone }
  intro other present
  change Fits _ (Function.update s.state obj.idMask state other.idMask) _
  by_cases same : other.idMask = obj.idMask
  · have equal := CreatedButtons.eq_of_mask present member same
    subst equal
    rw [Function.update_self]
    exact fits
  · rw [Function.update_of_ne same]
    exact records.fits other present

structure Released (buttons : CreatedButtons) (s : Buttons) : Prop where
  records : s.Records buttons
  invalid : ∀ mask, s.state mask = INVALID_STA
  quiet : s.timer.Quiet
  released : s.prevButtonsState = 0 → s.currentTiggeredObj = none
  level : s.Level

theorem invalid_of_lone {obj : ButtonObj} (records : s.Records buttons)
    (here : s.currentTiggeredObj = some obj) (mask : BitVec 32) :
    Function.update s.state obj.idMask INVALID_STA mask = INVALID_STA := by
  by_cases same : mask = obj.idMask
  · rw [same, Function.update_self]
  · rw [Function.update_of_ne same]
    by_contra said
    obtain ⟨other, there, elsewhere⟩ := records.lone mask said
    rw [here, Option.some.injEq] at there
    rw [there] at same
    exact same elsewhere.symm

theorem releaseEnd_eq (s : Buttons) (obj : ButtonObj) (buttonsState : BitVec 32)
    (due : ButtonState → Bool) (event : ButtonState) (other : event ≠ PRESS) :
    s.releaseEnd obj buttonsState due event =
      { s with
        state := Function.update s.state obj.idMask INVALID_STA
        callbacks := Function.update s.callbacks obj.idMask
          (if due (s.state obj.idMask) then s.callbacks obj.idMask ++ [event]
          else s.callbacks obj.idMask)
        currentTiggeredObj :=
          if buttonsState = ALL_BUTTONS_RELEASE then none
          else s.currentTiggeredObj } := by
  unfold releaseEnd deliver setState
  cases due (s.state obj.idMask) with
  | true =>
      simp only [if_true, if_neg other, Function.update_idem]
      split <;> rfl
  | false =>
      simp only [Bool.false_eq_true, if_false, Function.update_eq_self]
      split <;> rfl

@[simp] theorem releaseEnd_prev (s : Buttons) (obj : ButtonObj)
    (buttonsState : BitVec 32) (due : ButtonState → Bool)
    (event : ButtonState) :
    (s.releaseEnd obj buttonsState due event).prevButtonsState =
      s.prevButtonsState := by
  unfold releaseEnd
  cases due (s.state obj.idMask) <;>
    by_cases zero : buttonsState = ALL_BUTTONS_RELEASE <;>
    simp only [zero, if_true, if_false] <;> rfl

/-- The end of a release routine, for the word that the thread has read. -/
theorem releaseEnd_released {obj : ButtonObj} {event : ButtonState}
    {due : ButtonState → Bool} (records : s.Records buttons)
    (here : s.currentTiggeredObj = some obj) (quiet : s.timer.Quiet)
    (level : s.Level)
    (releases : Releases obj.func (s.state obj.idMask)
      (due (s.state obj.idMask)) event)
    (other : event ≠ PRESS) :
    (s.releaseEnd obj s.prevButtonsState due event).Released buttons := by
  have fits := (records.fits obj (records.known obj here)).released releases
  have invalid := invalid_of_lone records here
  rw [releaseEnd_eq s obj s.prevButtonsState due event other]
  refine
    { records := ?_
      invalid := invalid
      quiet := quiet
      released := fun zero => if_pos zero
      level := level }
  refine
    { fits := ?_
      pressed := records.pressed
      known := ?_
      lone := fun mask said => absurd (invalid mask) said }
  · intro button member
    change Fits _ (Function.update s.state obj.idMask _ button.idMask)
      (Function.update s.callbacks obj.idMask _ button.idMask)
    by_cases same : button.idMask = obj.idMask
    · have equal :=
        CreatedButtons.eq_of_mask member (records.known obj here) same
      subst equal
      rw [Function.update_self, Function.update_self]
      exact fits
    · rw [Function.update_of_ne same, Function.update_of_ne same]
      exact records.fits button member
  · intro button now
    change (if _ then none else s.currentTiggeredObj) = some button at now
    by_cases zero : s.prevButtonsState = ALL_BUTTONS_RELEASE
    · rw [if_pos zero] at now
      cases now
    · rw [if_neg zero] at now
      exact records.known button now

theorem Released.waiting (released : s.Released buttons) :
    Sound buttons { s with stage := .waiting } :=
  { records := released.records.of_eq rfl rfl rfl rfl
    place :=
      { none_ := fun _ => released.quiet
        some_ := fun _ _ => .inl released.quiet
        released := released.released }
    level := fun _ _ => released.level }

theorem Released.change (released : s.Released buttons) {obj : ButtonObj}
    (pressed : Pressed buttons s.prevButtonsState obj) :
    Sound buttons { s with stage := .change obj } :=
  { records := released.records.of_eq rfl rfl rfl rfl
    place := ⟨⟨pressed, released.invalid⟩, released.quiet⟩
    level := fun _ _ => released.level }

theorem Released.shortButtonPress (released : s.Released buttons)
    {obj : ButtonObj} (member : obj ∈ buttons.list)
    (mask : obj.idMask = s.prevButtonsState) (func : obj.func = SHORT_BUTTON) :
    (s.shortButtonPress obj).Sound buttons := by
  unfold Buttons.shortButtonPress
  split
  · exact released.waiting
  · have fits := released.records.fits obj member
    rw [released.invalid, func] at fits
    refine
      { records := ?_
        place :=
          { none_ := fun _ => released.quiet
            some_ := fun _ _ => .inl released.quiet
            released := ?_ }
        level := fun _ _ => released.level }
    · refine Records.of_eq
        (released.records.setState member ?_ (some obj) ?_ ?_) rfl rfl rfl rfl
      · rw [func]
        exact fits.unsaid (unsaid_invalid SHORT_BUTTON) .short
      · intro other same
        rw [Option.some.injEq] at same
        exact same ▸ member
      · intro mask said
        by_cases same : mask = obj.idMask
        · exact ⟨obj, rfl, same.symm⟩
        · change Function.update s.state obj.idMask PRESS mask ≠ _ at said
          rw [Function.update_of_ne same] at said
          exact absurd (released.invalid mask) said
    · intro zero
      exact absurd (mask.trans zero) (CreatedButtons.mask_ne_zero member)

theorem Released.longButtonPress (released : s.Released buttons)
    {obj : ButtonObj} (pressed : Pressed buttons s.prevButtonsState obj) :
    (s.longButtonPress obj).Sound buttons := by
  unfold Buttons.longButtonPress
  split
  · exact released.waiting
  · exact released.change pressed

theorem stop_sound {obj : ButtonObj} {caller : ReleaseCaller}
    (records : s.Records buttons) (level : s.Level)
    (here : s.currentTiggeredObj = some obj)
    (called : Called buttons s.prevButtonsState caller)
    (timed : obj.func ≠ SHORT_BUTTON)
    (invalid : obj.func = SHORT_LONG_BUTTON →
      s.state obj.idMask = INVALID_STA) :
    Sound buttons { s with stage := .stop obj caller } :=
  { records := records.of_eq rfl rfl rfl rfl
    place := ⟨here, called, timed, invalid⟩
    level := fun _ _ => level }

theorem isActive_sound {obj : ButtonObj} {caller : ReleaseCaller}
    (records : s.Records buttons) (level : s.Level)
    (here : s.currentTiggeredObj = some obj)
    (called : Called buttons s.prevButtonsState caller)
    (func : obj.func = SHORT_LONG_BUTTON)
    (once : s.timer.Quiet ∨ s.state obj.idMask = INVALID_STA) :
    Sound buttons { s with stage := .isActive obj caller } :=
  { records := records.of_eq rfl rfl rfl rfl
    place := ⟨here, called, func, once⟩
    level := fun _ _ => level }

theorem shortButtonRelease_released {obj : ButtonObj}
    (records : s.Records buttons) (level : s.Level)
    (here : s.currentTiggeredObj = some obj) (quiet : s.timer.Quiet)
    (func : obj.func = SHORT_BUTTON) :
    (s.shortButtonRelease obj s.prevButtonsState).Released buttons := by
  refine releaseEnd_released records here quiet level ?_ (by decide)
  rw [func]
  exact short_releases _ _

theorem Released.combinedLongButtonPress (released : s.Released buttons)
    {obj : ButtonObj} (pressed : Pressed buttons s.prevButtonsState obj) :
    (s.combinedLongButtonPress obj).Sound buttons := by
  unfold Buttons.combinedLongButtonPress
  split
  · exact released.change pressed
  · rename_i current here
    split
    · rename_i func
      have ended := shortButtonRelease_released released.records released.level
        here released.quiet func
      rw [pressed.mask]
      refine ended.change ?_
      rw [shortButtonRelease, releaseEnd_prev]
      exact pressed
    · rename_i func
      refine stop_sound released.records released.level here pressed ?_ ?_
      · rw [func]
        decide
      · exact fun _ => released.invalid _
    · rename_i func
      refine stop_sound released.records released.level here pressed ?_ ?_
      · rw [func]
        decide
      · exact fun _ => released.invalid _
    · rename_i func
      exact isActive_sound released.records released.level here pressed func
        (.inl released.quiet)
    · exact released.change pressed

theorem Released.press (released : s.Released buttons)
    {found : Option ButtonObj}
    (looked : found = getButtonsObj buttons.list s.prevButtonsState) :
    (s.press found).Sound buttons := by
  cases found with
  | none => exact released.waiting
  | some obj =>
      obtain ⟨member, mask⟩ := CreatedButtons.found looked.symm
      have pressed (timed : obj.func ≠ SHORT_BUTTON) :
          Pressed buttons s.prevButtonsState obj :=
        { member := member, mask := mask, timed := timed }
      unfold Buttons.press
      dsimp only
      rw [if_neg (not_not_intro (buttons.started obj member))]
      split
      · rename_i func
        exact released.shortButtonPress member mask func
      · rename_i func
        exact released.longButtonPress (pressed (by rw [func]; decide))
      · rename_i func
        exact released.longButtonPress (pressed (by rw [func]; decide))
      · rename_i func
        exact released.combinedLongButtonPress (pressed (by rw [func]; decide))
      · rename_i func
        exact released.longButtonPress (pressed (by rw [func]; decide))

theorem Released.resume (released : s.Released buttons) (obj : ButtonObj)
    {caller : ReleaseCaller}
    (called : Called buttons s.prevButtonsState caller) :
    (s.resume obj caller).Sound buttons := by
  cases caller with
  | process found => exact released.press called
  | combined next =>
      unfold Buttons.resume
      dsimp only
      split
      · exact released.waiting
      · exact released.change called

end Buttons

end XR872.Button
