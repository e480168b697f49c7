/-
What the callbacks of a button say, over whole runs.

The documented patterns hold throughout every run whose steps are clean: one
lemma for each place of the thread, and the runs from them.
-/

import XR872.Button.Invariant

namespace XR872.Button

open Runs ButtonType ButtonState

variable {buttons : CreatedButtons} {s : Buttons}

/-! ### The thread -/

namespace Buttons

theorem releaseCurrentTiggeredObj_sound {before : BitVec 32}
    {found : Option ButtonObj} (records : s.Records buttons)
    (settled : Settled s.timer before s.currentTiggeredObj s.state)
    (level : s.Level)
    (looked : found = getButtonsObj buttons.list s.prevButtonsState) :
    (s.releaseCurrentTiggeredObj found).Sound buttons := by
  unfold releaseCurrentTiggeredObj
  split
  · rename_i absent
    refine Released.press ?_ looked
    refine
      { records := records
        invalid := ?_
        quiet := settled.none_ absent
        released := fun _ => absent
        level := level }
    intro mask
    by_contra said
    obtain ⟨obj, here, _⟩ := records.lone mask said
    rw [absent] at here
    cases here
  · rename_i obj here
    have awaited := settled.some_ obj here
    have stopping (timed : obj.func ≠ SHORT_BUTTON)
        (other : obj.func ≠ SHORT_LONG_BUTTON) :=
      stop_sound records level here
        (show Called buttons s.prevButtonsState (.process found) from looked)
        timed (fun func => absurd func other)
    split
    · rename_i func
      have quiet : s.timer.Quiet := by
        rcases awaited with quiet | awaits
        · exact quiet
        · exact absurd func awaits.timed
      refine (shortButtonRelease_released records level here quiet func).press ?_
      rw [shortButtonRelease, releaseEnd_prev]
      exact looked
    · rename_i func
      exact stopping (by rw [func]; decide) (by rw [func]; decide)
    · rename_i func
      exact stopping (by rw [func]; decide) (by rw [func]; decide)
    · rename_i func
      exact stopping (by rw [func]; decide) (by rw [func]; decide)
    · rename_i func
      refine isActive_sound records level here looked func ?_
      rcases awaited with quiet | awaits
      · exact .inl quiet
      · exact .inr (awaits.once (by rw [func]; decide)).2

/-- The release of an object whose timer is stopped and forgotten. -/
theorem timedButtonRelease_released {obj : ButtonObj}
    (records : s.Records buttons) (level : s.Level)
    (here : s.currentTiggeredObj = some obj) (quiet : s.timer.Quiet)
    (timed : obj.func ≠ SHORT_BUTTON)
    (invalid : obj.func = SHORT_LONG_BUTTON →
      s.state obj.idMask = INVALID_STA) :
    (s.timedButtonRelease obj s.prevButtonsState).Released buttons ∧
      (s.timedButtonRelease obj s.prevButtonsState).prevButtonsState =
        s.prevButtonsState := by
  have ended {due : ButtonState → Bool}
      (releases : Releases obj.func (s.state obj.idMask)
        (due (s.state obj.idMask)) RELEASE) :
      (s.releaseEnd obj s.prevButtonsState due RELEASE).Released buttons ∧
        (s.releaseEnd obj s.prevButtonsState due RELEASE).prevButtonsState =
          s.prevButtonsState :=
    ⟨releaseEnd_released records here quiet level releases (by decide),
      releaseEnd_prev ..⟩
  unfold timedButtonRelease
  split
  · rename_i func
    exact absurd func timed
  · rename_i func
    refine ended ?_
    rw [func]
    exact long_releases _
  · rename_i func
    refine ended ?_
    rw [func, invalid func]
    exact shortLong_releases
  · rename_i func
    refine ended ?_
    rw [func]
    exact combined_releases _
  · rename_i func
    rw [repeatLongButtonRelease, longButtonRelease]
    refine ended ?_
    rw [func]
    exact repeatLong_releases _

theorem buttonTimerEvent_sound (records : s.Records buttons)
    (settled : Settled s.timer s.prevButtonsState s.currentTiggeredObj s.state)
    (level : s.Level) (timeUp : s.timer.timeUp = true) :
    (s.buttonTimerEvent).Sound buttons := by
  have noisy : ¬ s.timer.Quiet := by
    intro quiet
    rw [quiet.timeUp] at timeUp
    cases timeUp
  unfold buttonTimerEvent
  split
  · rename_i absent
    exact absurd (settled.none_ absent) noisy
  · rename_i obj here
    have awaits := (settled.some_ obj here).resolve_left noisy
    have fits := records.fits obj (records.known obj here)
    have expiry (invalid : s.state obj.idMask = INVALID_STA) :
        s.timer.expiry = some (obj, true) :=
      (awaits.own invalid).expiry (.inr timeUp)
    have told (other : obj.func ≠ REPEAT_LONG_BUTTON) :
        Sound buttons { s.deliver obj PRESS with stage := .eventClear } := by
      obtain ⟨once, invalid⟩ := awaits.once other
      have quiet := once.quiet timeUp
      rw [invalid] at fits
      have next := fits.goesOn fun part => Opened.pressed awaits.timed
      exact
        { records :=
            (records.deliver here next fun _ => expiry invalid).of_eq rfl rfl
              rfl rfl
          place :=
            { none_ := fun _ => quiet
              some_ := fun _ _ => .inl quiet
              released := settled.released }
          level := fun _ _ => level }
    have repeated {event : ButtonState} (func : obj.func = REPEAT_LONG_BUTTON)
        (next : ∀ part, Opened obj.func (s.state obj.idMask) part →
          Opened obj.func event (part ++ [event]))
        (first : event = PRESS → s.state obj.idMask = INVALID_STA)
        (said : event ≠ INVALID_STA) :
        Sound buttons { s.deliver obj event with stage := .eventChange } := by
      have repeating : Repeating s.prevButtonsState s.currentTiggeredObj
          (s.deliver obj event).state := by
        refine ⟨obj, here, func, awaits.last, ?_⟩
        change Function.update s.state obj.idMask event obj.idMask ≠ _
        rw [Function.update_self]
        exact said
      exact
        { records :=
            (records.deliver here (fits.goesOn next) fun pressed =>
              expiry (first pressed)).of_eq rfl rfl rfl rfl
          place := ⟨repeating.settled _ settled.released, repeating⟩
          level := fun _ _ => level }
    split
    · rename_i func
      exact told (by rw [func]; decide)
    · rename_i func
      exact told (by rw [func]; decide)
    · rename_i func
      exact told (by rw [func]; decide)
    · rename_i func
      cases at_ : s.state obj.idMask with
      | INVALID_STA =>
          rw [at_] at repeated
          exact repeated func (fun part => Opened.pressed awaits.timed)
            (fun _ => rfl) (by decide)
      | PRESS | REPEAT_PRESS =>
          rw [at_, func] at repeated
          exact repeated rfl
            (fun part opened => opened.repeated (by decide))
            (fun impossible => absurd impossible (by decide)) (by decide)
      | RELEASE | REPEAT_RELEASE =>
          rw [at_, func] at fits
          obtain ⟨_, _, _, opened, _⟩ := fits
          cases opened
    · rename_i func
      exact absurd func awaits.timed

theorem Sound.placeAt {stage : ButtonsStage} (sound : s.Sound buttons)
    (at_ : s.stage = stage) : s.At buttons stage := by
  rw [← at_]
  exact sound.place

theorem waiting_sound (sound : s.Sound buttons) (at_ : s.stage = .waiting) :
    (s.processThread buttons.list).Sound buttons := by
  unfold processThread
  rw [at_]
  dsimp only
  split
  · exact
      { records := sound.records.of_eq rfl rfl rfl rfl
        place := sound.placeAt at_
        level := fun notCheck _ => absurd rfl notCheck }
  · exact sound

theorem check_sound (sound : s.Sound buttons) (at_ : s.stage = .check)
    (clean : ButtonsClean s .thread) :
    (s.processThread buttons.list).Sound buttons := by
  have settled := sound.placeAt at_
  unfold processThread
  rw [at_]
  dsimp only
  split
  · rename_i timeUp
    unfold ButtonsClean at clean
    rw [at_] at clean
    exact buttonTimerEvent_sound sound.records settled (clean timeUp) timeUp
  · exact
      { records := sound.records.of_eq rfl rfl rfl rfl
        place := settled
        level := fun _ notRead => absurd rfl notRead }

/-- The stages of the thread in which a change of the buttons has its signal. -/
theorem Sound.levelAt {stage : ButtonsStage} (sound : s.Sound buttons)
    (at_ : s.stage = stage) (notCheck : stage ≠ .check)
    (notRead : stage ≠ .read) : s.Level := by
  apply sound.level
  · rw [at_]
    exact notCheck
  · rw [at_]
    exact notRead

theorem event_sound (sound : s.Sound buttons)
    (at_ : s.stage = .eventChange ∨ s.stage = .eventStart ∨
      s.stage = .eventClear) :
    (s.processThread buttons.list).Sound buttons := by
  unfold processThread
  rcases at_ with at_ | at_ | at_
  · obtain ⟨settled, repeating⟩ := sound.placeAt at_
    rw [at_]
    exact
      { records := sound.records.of_eq rfl rfl rfl rfl
        place := ⟨repeating.settled _ settled.released, repeating⟩
        level := fun _ _ => sound.levelAt at_ (by decide) (by decide) }
  · obtain ⟨settled, repeating⟩ := sound.placeAt at_
    rw [at_]
    exact
      { records := sound.records.of_eq rfl rfl rfl rfl
        place := repeating.settled _ settled.released
        level := fun _ _ => sound.levelAt at_ (by decide) (by decide) }
  · have settled := sound.placeAt at_
    rw [at_]
    exact
      { records := sound.records.of_eq rfl rfl rfl rfl
        place := settled
        level := fun _ _ => sound.levelAt at_ (by decide) (by decide) }

theorem read_sound (sound : s.Sound buttons) (at_ : s.stage = .read) :
    (s.processThread buttons.list).Sound buttons := by
  have settled := sound.placeAt at_
  unfold processThread
  rw [at_]
  dsimp only
  split
  · rename_i same
    exact
      { records := sound.records.of_eq rfl rfl rfl rfl
        place := settled
        level := fun _ _ => .inl same.symm }
  · exact releaseCurrentTiggeredObj_sound
      (sound.records.of_eq rfl rfl rfl rfl) settled (.inl rfl) rfl

theorem called_buttonsState {caller : ReleaseCaller}
    (called : Called buttons s.prevButtonsState caller) :
    caller.buttonsState s = s.prevButtonsState := by
  cases caller with
  | process found => rfl
  | combined obj => exact called.mask

theorem isActive_step {obj : ButtonObj} {caller : ReleaseCaller}
    (sound : s.Sound buttons) (at_ : s.stage = .isActive obj caller)
    (clean : ButtonsClean s .thread) :
    (s.processThread buttons.list).Sound buttons := by
  obtain ⟨here, called, func, once⟩ := sound.placeAt at_
  have level : s.Level :=
    sound.levelAt at_ ButtonsStage.noConfusion ButtonsStage.noConfusion
  unfold processThread
  rw [at_]
  dsimp only
  split
  · rename_i active
    refine stop_sound sound.records level here called (by rw [func]; decide) ?_
    intro _
    rcases once with quiet | invalid
    · rw [quiet.active] at active
      cases active
    · exact invalid
  · rename_i inactive
    unfold ButtonsClean at clean
    rw [at_] at clean
    have stopped := eq_false_of_ne_true inactive
    have quiet : s.timer.Quiet :=
      { active := stopped
        callback := (clean stopped).1
        timeUp := (clean stopped).2 }
    have ended : (s.shortLongButtonRepeatRelease obj s.prevButtonsState).Released
        buttons := by
      refine releaseEnd_released sound.records here quiet level ?_ (by decide)
      rw [func]
      exact shortLong_repeatReleases _
    rw [called_buttonsState called]
    refine ended.resume obj ?_
    rw [shortLongButtonRepeatRelease, releaseEnd_prev]
    exact called

theorem stop_step {obj : ButtonObj} {caller : ReleaseCaller}
    (sound : s.Sound buttons) (at_ : s.stage = .stop obj caller) :
    (s.processThread buttons.list).Sound buttons := by
  have releasing := sound.placeAt at_
  have level : s.Level :=
    sound.levelAt at_ ButtonsStage.noConfusion ButtonsStage.noConfusion
  unfold processThread
  rw [at_]
  exact
    { records := sound.records.of_eq rfl rfl rfl rfl
      place := ⟨releasing, rfl⟩
      level := fun _ _ => level }

theorem clear_step {obj : ButtonObj} {caller : ReleaseCaller}
    (sound : s.Sound buttons) (at_ : s.stage = .clear obj caller)
    (clean : ButtonsClean s .thread) :
    (s.processThread buttons.list).Sound buttons := by
  obtain ⟨⟨here, called, timed, invalid⟩, stopped⟩ :=
    sound.placeAt at_
  have level : s.Level :=
    sound.levelAt at_ ButtonsStage.noConfusion ButtonsStage.noConfusion
  unfold ButtonsClean at clean
  rw [at_] at clean
  have records : s.clearTimeUp.Records buttons :=
    sound.records.of_eq rfl rfl rfl rfl
  have quiet : s.clearTimeUp.timer.Quiet :=
    { active := stopped, callback := clean, timeUp := rfl }
  have word : caller.buttonsState s.clearTimeUp =
      s.clearTimeUp.prevButtonsState := called_buttonsState called
  obtain ⟨ended, last⟩ :=
    timedButtonRelease_released records level here quiet timed invalid
  unfold processThread
  rw [at_]
  dsimp only
  rw [word]
  refine ended.resume obj ?_
  rw [last]
  exact called

theorem change_step {obj : ButtonObj} (sound : s.Sound buttons)
    (at_ : s.stage = .change obj) :
    (s.processThread buttons.list).Sound buttons := by
  obtain ⟨pressing, quiet⟩ := sound.placeAt at_
  have level : s.Level :=
    sound.levelAt at_ ButtonsStage.noConfusion ButtonsStage.noConfusion
  unfold processThread
  rw [at_]
  refine
    { records := sound.records.of_eq rfl rfl rfl rfl
      place := ⟨pressing, ?_, fun _ => ⟨quiet.callback, quiet.timeUp⟩⟩
      level := fun _ _ => level }
  refine { starter := rfl, expiry := ?_ }
  intro underway
  rcases underway with going | timeUp
  · exact absurd quiet.callback going
  · rw [show s.timer.timeUp = false from quiet.timeUp] at timeUp
    cases timeUp

theorem start_step {obj : ButtonObj} (sound : s.Sound buttons)
    (at_ : s.stage = .start obj) :
    (s.processThread buttons.list).Sound buttons := by
  obtain ⟨⟨pressed, invalid⟩, own, unset⟩ := sound.placeAt at_
  have level : s.Level :=
    sound.levelAt at_ ButtonsStage.noConfusion ButtonsStage.noConfusion
  have same : (s.setState obj INVALID_STA).state = s.state := by
    change Function.update s.state obj.idMask INVALID_STA = s.state
    rw [Function.update_eq_self_iff]
    exact (invalid obj.idMask).symm
  unfold processThread
  rw [at_]
  refine { records := ?_, place := ?_, level := fun _ _ => level }
  · refine Records.of_eq (sound.records.setState pressed.member ?_ (some obj)
      ?_ ?_) rfl rfl rfl rfl
    · have fits := sound.records.fits obj pressed.member
      rw [invalid] at fits
      exact fits
    · intro other same_
      rw [Option.some.injEq] at same_
      exact same_ ▸ pressed.member
    · intro mask said
      rw [same] at said
      exact absurd (invalid mask) said
  · change Settled _ _ _ (s.setState obj INVALID_STA).state
    rw [same]
    refine { none_ := ?_, some_ := ?_, released := ?_ }
    · intro absent
      cases absent
    · intro other here
      cases here
      right
      exact
        { timed := pressed.timed
          last := pressed.mask.symm
          once := fun func =>
            ⟨{ active := fun _ => unset func
               callback := fun going => absurd (unset func).1 going },
              invalid obj.idMask⟩
          own := fun _ => { starter := own.starter, expiry := own.expiry } }
    · intro zero
      exact absurd (pressed.mask.trans zero)
        (CreatedButtons.mask_ne_zero pressed.member)

theorem thread_sound (sound : s.Sound buttons)
    (clean : ButtonsClean s .thread) :
    (s.processThread buttons.list).Sound buttons := by
  cases at_ : s.stage with
  | waiting => exact waiting_sound sound at_
  | check => exact check_sound sound at_ clean
  | eventChange => exact event_sound sound (.inl at_)
  | eventStart => exact event_sound sound (.inr (.inl at_))
  | eventClear => exact event_sound sound (.inr (.inr at_))
  | read => exact read_sound sound at_
  | isActive obj caller => exact isActive_step sound at_ clean
  | stop obj caller => exact stop_step sound at_
  | clear obj caller => exact clear_step sound at_ clean
  | change obj => exact change_step sound at_
  | start obj => exact start_step sound at_

end Buttons

/-! ### Runs -/

theorem buttonsStep_sound (state : Buttons) (input : ButtonsInput)
    (sound : state.Sound buttons) (clean : ButtonsClean state input) :
    (buttonsStep buttons.list state input).Sound buttons := by
  cases input with
  | change word => exact change_sound sound word
  | expire => exact expire_sound sound clean
  | callback => exact callback_sound sound
  | thread => exact Buttons.thread_sound sound clean

theorem buttonsInit_sound (buttons : CreatedButtons) :
    buttonsInit.Sound buttons :=
  { records :=
      { fits := fun obj _ =>
          ⟨[], [], fun _ impossible => absurd impossible List.not_mem_nil,
            .invalid obj.func, rfl⟩
        pressed := fun _ impossible => absurd impossible List.not_mem_nil
        known := by
          intro obj impossible
          cases impossible
        lone := fun _ said => absurd rfl said }
    place :=
      { none_ := fun _ => { active := rfl, callback := rfl, timeUp := rfl }
        some_ := by
          intro obj impossible
          cases impossible
        released := fun _ => rfl }
    level := fun _ _ => .inl rfl }

theorem Buttons.Sound.promise (state : Buttons) (sound : state.Sound buttons) :
    ButtonPromise buttons state := by
  refine { pattern := ?_, pressed := sound.records.pressed, startsClean := ?_ }
  · intro obj member
    exact (sound.records.fits obj member).repeats
  · intro waiting unsignalled free
    have settled := sound.placeAt waiting
    have level := sound.levelAt waiting (by decide) (by decide)
    rcases level with same | signalled
    · have none_ := settled.released (same.symm.trans free)
      have quiet := settled.none_ none_
      exact ⟨none_, quiet.active, quiet.timeUp⟩
    · rw [unsignalled] at signalled
      cases signalled

/-- What is promised of the buttons holds throughout every run whose steps are
clean. -/
theorem buttonPromise_of_clean (buttons : CreatedButtons)
    (inputs : List ButtonsInput)
    (clean : Along (buttonsStep buttons.list) ButtonsClean buttonsInit
      inputs) :
    Always (buttonsStep buttons.list) (ButtonPromise buttons) buttonsInit
      inputs := by
  have always := always_of_along (Buttons.Sound buttons) ButtonsClean
    buttonsStep_sound buttonsInit (buttonsInit_sound buttons) inputs clean
  exact always_imp _ _ Buttons.Sound.promise buttonsInit inputs always

theorem longButton_admitted :
    ∀ obj ∈ [(⟨1, true, LONG_BUTTON⟩ : ButtonObj)],
      obj.func.Admits (countOnes 32 obj.idMask) := by
  decide

theorem longButton_started :
    ∀ obj ∈ [(⟨1, true, LONG_BUTTON⟩ : ButtonObj)], obj.en = true := by
  decide

/-- One long button, of mask 1. -/
def oneLongButton : CreatedButtons :=
  { list := [⟨1, true, LONG_BUTTON⟩]
    admitted := longButton_admitted
    distinct := List.nodup_singleton _
    started := longButton_started }

def heldUntilExpiry : List ButtonsInput :=
  [.change 1, .thread, .thread, .thread, .thread, .thread, .expire, .callback,
    .callback]

/-- The expiry is answered, and then the button is released. -/
def releasedLater : List ButtonsInput :=
  heldUntilExpiry ++
    [.thread, .thread, .thread, .change 0, .thread, .thread, .thread, .thread,
      .thread]

/-- The button is released before the expiry is answered: one signal for
both. -/
def releasedAtExpiry : List ButtonsInput :=
  heldUntilExpiry ++ [.change 0, .thread, .thread, .thread]

theorem releasedLater_clean :
    Always (buttonsStep oneLongButton.list) (ButtonPromise oneLongButton)
        buttonsInit releasedLater ∧
      (run (buttonsStep oneLongButton.list) buttonsInit releasedLater).callbacks
        1 = [PRESS, RELEASE] :=
  ⟨buttonPromise_of_clean oneLongButton releasedLater (by decide), by decide⟩

/-- The release of the button is lost: the thread waits, with the buttons
released and the object still triggered. -/
theorem releasedAtExpiry_stuck :
    ¬ Always (buttonsStep oneLongButton.list) (ButtonPromise oneLongButton)
      buttonsInit releasedAtExpiry := by
  intro always
  have last := always releasedAtExpiry List.prefix_rfl
  have clean := last.startsClean (by decide) (by decide) (by decide)
  exact absurd clean.1 (by decide)

end XR872.Button
