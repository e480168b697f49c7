/-
What a tone leaves behind.

`impl->tone` is set before the source of the tone is opened and cleared before
`impl->tone->arg` is read. So a tone whose source does not open is never over,
and one that is over has been read through `NULL`; there is no third way.
-/

import XR872.Library.Run
import XR872.Player.Player

namespace XR872.Players

open Runs

/-- The player, what the tone callback has heard since the last `play_tone`
that returned 0, and the music: its state and position when that tone began,
and what there is to go back to behind its end. -/
structure Toned where
  player : Player
  heard : Option (List (BitVec 32))
  saved : AplayerStates × Int
  restoring : Option (AplayerStates × Int)

def Event.forMusic : Event → Bool
  | .play _ _ _ => true
  | .stop _ _ => true
  | .pause _ => true
  | .resume _ => true
  | .seek _ _ => true
  | .playTone _ _ _ _ => true
  | .handle _ _ => true
  | _ => false

namespace Toned

def start : Toned :=
  { player := .start
    heard := none
    saved := (.init, 0)
    restoring := none }

def toneCalls (effects : List Effect) : List (BitVec 32) :=
  effects.filterMap fun
    | .toneCallback evt _ => some evt
    | _ => none

def step (toned : Toned) (event : Event) : Toned :=
  let next := toned.player.step event
  let began := .returned .playTone 0 ∈ next.effects
  { player := next
    heard :=
      if began then some []
      else toned.heard.map (· ++ toneCalls next.effects)
    saved :=
      if began then (toned.player.state, next.pauseTime) else toned.saved
    restoring :=
      if .toneEnds ∈ next.effects then some toned.saved
      else if event.forMusic then none
      else toned.restoring }

def ToneOver (evt : BitVec 32) : Prop :=
  evt = PLAYER_EVENTS_TONE_STOPED ∨ evt = PLAYER_EVENTS_TONE_COMPLETE ∨
    evt = PLAYER_EVENTS_TONE_ERROR

/-- A `play_tone` that fails does not leave the player toning, one that
succeeds is heard of once, with its argument, no tone is read that is `NULL`,
and behind it the music goes on as it was. -/
structure Sound (toned : Toned) (event : Event) : Prop where
  failed : ∀ url position reset env,
    event = .playTone url position reset env →
    (∃ ret, .returned .playTone ret ∈ (toned.step event).player.effects ∧
      ret ≠ 0) ∨ opens url env = false →
    (toned.step event).player.tone = false
  once : ∀ calls, (toned.step event).heard = some calls →
    if (toned.step event).player.tone then calls = []
    else ∃ evt, ToneOver evt ∧ calls = [evt]
  arg : ∀ evt arg,
    .toneCallback evt arg ∈ (toned.step event).player.effects →
    arg = some toned.player.toneArg
  present : .nullTone ∉ (toned.step event).player.effects
  reopened : .toneEnds ∈ (toned.step event).player.effects →
    toned.saved.1 = .playing ∨ toned.saved.1 = .pause →
    .setDataSource toned.player.url ∈ (toned.step event).player.effects
  restored : ∀ state position msg reset env,
    toned.restoring = some (state, position) →
    toned.player.handling = .checked msg → event = .handle reset env →
    aplayerGetState msg.data = PLAYER_EVENTS_MEDIA_PREPARED →
    (position ≠ 0 → .seekTo position ∈ (toned.step event).player.effects) ∧
      (state = .playing → .start ∈ (toned.step event).player.effects ∧
        (toned.step event).player.state = .playing) ∧
      (state = .pause → .start ∉ (toned.step event).player.effects ∧
        (toned.step event).player.state = .pause)

/-- What the steps have to keep to. -/
def Orderly (toned : Toned) : Event → Prop
  | .playTone url _ _ env =>
      toned.player.tone = false ∧ opens url env = true
  | .handle _ _ =>
      ∀ msg, toned.player.handling = .toneRead msg →
        aplayerGetId msg.data = toned.player.id.setWidth 32 →
          aplayerGetState msg.data ≠ PLAYER_EVENTS_TONE_STOPED ∧
            aplayerGetState msg.data ≠ PLAYER_EVENTS_MEDIA_PLAYBACK_COMPLETE ∧
            aplayerGetState msg.data ≠ PLAYER_EVENTS_MEDIA_ERROR
  | _ => True

end Toned

/-! ### Steps without a tone that begins or ends -/

/-- Nothing of a tone is shown. -/
def Effect.plain : Effect → Bool
  | .toneCallback _ _ => false
  | .toneEnds => false
  | .nullTone => false
  | .returned .playTone _ => false
  | _ => true

/-- No tone begins or ends, and only messages of a tone that is there are added
for `tone_handler`. -/
structure Calm (player next : Player) : Prop where
  tone : next.tone = player.tone
  plain : ∀ effect ∈ next.effects, effect.plain = true
  queued : ∀ msg ∈ next.queue, msg ∈ player.queue ∨ msg.tone = player.tone
  handling : ∀ msg, next.handling = .toneRead msg →
    player.handling = .toneRead msg ∨ msg ∈ player.queue ∧ msg.tone = true

namespace Calm

variable {player : Player}

theorem clear : Calm player player.clear := by
  exact {
    tone := rfl
    plain := nofun
    queued := fun msg there => Or.inl there
    handling := fun msg here => Or.inl here }

variable {next : Player} (calm : Calm player next)

include calm

theorem same {after : Player} (tone : after.tone = next.tone)
    (effects : after.effects = next.effects) (queue : after.queue = next.queue)
    (handling : after.handling = next.handling) : Calm player after := by
  exact {
    tone := tone.trans calm.tone
    plain := by
      rw [effects]
      exact calm.plain
    queued := by
      rw [queue]
      exact calm.queued
    handling := by
      rw [handling]
      exact calm.handling }

theorem idle : Calm player { next with handling := .idle } := by
  exact { calm with handling := nofun }

theorem emit (effect : Effect) (plain : effect.plain = true) :
    Calm player (next.emit effect) := by
  refine { calm with plain := ?_ }
  intro shown there
  rcases List.mem_append.mp there with old | new
  · exact calm.plain shown old
  · rw [List.mem_singleton.mp new]
    exact plain

theorem send (evt : BitVec 32) (sent : Bool) :
    Calm player (next.send evt sent) := by
  unfold Player.send
  split
  · refine { calm with queued := ?_ }
    intro msg there
    rcases List.mem_append.mp there with old | new
    · exact calm.queued msg old
    · rw [List.mem_singleton.mp new]
      exact Or.inr calm.tone
  · exact calm

theorem reset (ok : Bool) : Calm player (next.reset ok) := by
  unfold Player.reset
  split
  · exact calm.same rfl rfl rfl rfl
  · exact calm

theorem setUrl (url : Option Url) (env : OpenEnv) :
    Calm player (next.setUrl url env).2 := by
  have asked := calm.emit (.setDataSource url) rfl
  unfold Player.setUrl
  dsimp only
  split
  · split
    · exact asked.same rfl rfl rfl rfl
    · exact (asked.same rfl rfl rfl rfl : Calm player
        { next.emit (.setDataSource url) with
          source := (next.emit (.setDataSource url)).source + 1 }).send _ _
  · exact asked

theorem prepared (evt : BitVec 32) (source : Nat) :
    Calm player (next.seekPaused.emit (.callback evt source)).playUnpaused := by
  have sought : Calm player next.seekPaused := by
    unfold Player.seekPaused
    split
    · exact (calm.emit (.seekTo _) rfl).same rfl rfl rfl rfl
    · exact calm
  have called := sought.emit (.callback evt source) rfl
  unfold Player.playUnpaused
  split
  · exact called.emit .start rfl
  · exact called

end Calm

section Calls

variable {player next : Player} (calm : Calm player next)

include calm

theorem Calm.playerSeturl (url : Option Url) (env : OpenEnv) (reset : Bool) :
    Calm player (next.playerSeturl url env reset) := by
  have given : Calm player
      (({ next with
        state := .preparing
        pauseTime := 0
        url := url } : Player).setUrl url env).2 :=
    (calm.same rfl rfl rfl rfl : Calm player
      { next with
        state := .preparing
        pauseTime := 0
        url := url }).setUrl url env
  unfold Player.playerSeturl
  dsimp only
  split
  · exact calm.emit _ rfl
  · split
    · exact calm.emit _ rfl
    · split
      · exact given.emit _ rfl
      · exact ((given.reset reset).same rfl rfl rfl rfl : Calm player
          { Player.reset _ reset with state := .stopped }).emit _ rfl

theorem Calm.playerStop (reset sent : Bool) :
    Calm player (next.playerStop reset sent) := by
  unfold Player.playerStop
  split
  · exact calm.emit _ rfl
  · exact (((calm.reset reset).same rfl rfl rfl rfl : Calm player
      { next.reset reset with state := .stopped }).send _ _).emit _ rfl

theorem Calm.playerPause (ok : Bool) : Calm player (next.playerPause ok) := by
  unfold Player.playerPause
  split
  · exact calm.emit _ rfl
  · exact (calm.same rfl rfl rfl rfl : Calm player
      { next with state := .pause }).emit _ rfl

theorem Calm.playerResume (ok : Bool) :
    Calm player (next.playerResume ok) := by
  unfold Player.playerResume
  split
  · exact calm.emit _ rfl
  · exact ((calm.emit .start rfl).same rfl rfl rfl rfl : Calm player
      { next.emit .start with
        pauseTime := 0
        state := .playing }).emit _ rfl

theorem Calm.playerSeek (ms : Int) (ok : Bool) :
    Calm player (next.playerSeek ms ok) := by
  unfold Player.playerSeek
  split
  · exact calm.emit _ rfl
  · exact ((calm.same rfl rfl rfl rfl : Calm player
      { next with pauseTime := ms }).emit (.seekTo ms) rfl).emit _ rfl

theorem Calm.playerStoptone (sent : Bool) :
    Calm player (next.playerStoptone sent) := by
  unfold Player.playerStoptone
  split
  · exact (calm.send _ _).emit _ rfl
  · exact calm.emit _ rfl

theorem Calm.playerHandlerPreprocess (msg : Msg) (reset : Bool) :
    Calm player (next.playerHandlerPreprocess msg reset) := by
  have acting := calm.emit (.acts msg.resets next.resets) rfl
  unfold Player.playerHandlerPreprocess
  dsimp only
  split
  · exact ((acting.prepared _ _).same rfl rfl rfl rfl : Calm player
      { Player.playUnpaused _ with state := .playing }).idle
  · split
    · exact { acting.reset reset with handling := nofun }
    · exact { acting with handling := nofun }

/-- `tone_handler` where the tone is not over. -/
theorem Calm.toneHandler (msg : Msg) (reset : Bool) (env : OpenEnv)
    (goesOn : aplayerGetId msg.data = next.id.setWidth 32 →
      aplayerGetState msg.data ≠ PLAYER_EVENTS_TONE_STOPED ∧
        aplayerGetState msg.data ≠ PLAYER_EVENTS_MEDIA_PLAYBACK_COMPLETE ∧
        aplayerGetState msg.data ≠ PLAYER_EVENTS_MEDIA_ERROR) :
    Calm player (next.toneHandler msg reset env) := by
  unfold Player.toneHandler
  dsimp only
  by_cases current : aplayerGetId msg.data = next.id.setWidth 32
  · obtain ⟨noStop, noComplete, noError⟩ := goesOn current
    rw [if_neg (not_not.mpr current), if_neg noStop, if_neg noComplete,
      if_neg noError]
    split
    · exact calm.emit .start rfl
    · exact calm
  · rw [if_pos current]
    exact calm

end Calls

namespace Toned

structure Held (toned : Toned) : Prop where
  toning : toned.player.tone = true → toned.heard = some []
  silent : toned.player.tone = false → toned.heard = none
  restoring : toned.restoring = none
  queued : toned.player.tone = false →
    ∀ msg ∈ toned.player.queue, msg.tone = false
  handling : toned.player.tone = false →
    ∀ msg, toned.player.handling ≠ .toneRead msg

theorem held_start : Held start := by
  exact {
    toning := nofun
    silent := fun _ => rfl
    restoring := rfl
    queued := fun _ => nofun
    handling := fun _ => nofun }

theorem calm_handle {toned : Toned} (reset : Bool) (env : OpenEnv)
    (orderly : toned.Orderly (.handle reset env)) :
    Calm toned.player (toned.player.step (.handle reset env)) := by
  change Calm _ (toned.player.clear.handle reset env)
  have clear : Calm toned.player toned.player.clear := Calm.clear
  unfold Player.handle
  cases here : toned.player.clear.handling with
  | idle => exact clear
  | checked msg => exact clear.playerHandlerPreprocess msg reset
  | reporting evt source => exact (clear.emit _ rfl).idle
  | toneRead msg =>
      exact (clear.toneHandler msg reset env (orderly msg here)).idle

section Steps

variable {toned : Toned} (held : toned.Held)

include held

/-- A message for `tone_handler` finds a tone. -/
theorem Held.dispatch : Calm toned.player (toned.player.step .dispatch) := by
  change Calm _ toned.player.clear.dispatch
  rcases toned.player.clear.dispatch_cases with
    same | ⟨msg, rest, idle, queue, taken⟩
  · rw [same]
    exact Calm.clear
  have member : msg ∈ toned.player.queue := by
    rw [show toned.player.queue = msg :: rest from queue]
    exact List.mem_cons_self
  have queued : ∀ other ∈ rest,
      other ∈ toned.player.queue ∨ other.tone = toned.player.tone := by
    intro other there
    rw [show toned.player.queue = msg :: rest from queue]
    exact Or.inl (List.mem_cons_of_mem _ there)
  rcases taken with ⟨tone, next⟩ | ⟨_, _, next⟩ | ⟨_, _, next⟩
  · have toning : toned.player.tone = true := by
      by_contra over_
      rw [held.queued (Bool.not_eq_true _ ▸ over_) msg member] at tone
      cases tone
    have read := Player.readTone_of_tone
      { toned.player.clear with queue := rest } toning
    rw [next, read]
    exact { (Calm.clear : Calm toned.player _) with
      queued := queued
      handling := by
        intro other same
        cases same
        exact Or.inr ⟨member, tone⟩ }
  · rw [next]
    exact { (Calm.clear : Calm toned.player _) with queued := queued }
  · rw [next]
    exact { (Calm.clear : Calm toned.player _) with
      queued := queued
      handling := nofun }

theorem Held.calm (event : Event)
    (noTone : ∀ url position reset env, event ≠ .playTone url position reset env)
    (orderly : toned.Orderly event) :
    Calm toned.player (toned.player.step event) := by
  have clear : Calm toned.player toned.player.clear := Calm.clear
  cases event with
  | play url env reset => exact clear.playerSeturl url env reset
  | stop reset sent => exact clear.playerStop reset sent
  | pause ok => exact clear.playerPause ok
  | resume ok => exact clear.playerResume ok
  | seek ms ok => exact clear.playerSeek ms ok
  | playTone url position reset env => exact absurd rfl (noTone _ _ _ _)
  | stopTone sent => exact clear.playerStoptone sent
  | toneCreate arg => exact clear.same rfl rfl rfl rfl
  | report report sent => exact clear.send report.evt sent
  | dispatch => exact held.dispatch
  | handle reset env => exact calm_handle reset env orderly

theorem Held.calmly {event : Event}
    (calm : Calm toned.player (toned.player.step event)) :
    Held (toned.step event) ∧ (∀ evt arg,
      .toneCallback evt arg ∉ (toned.step event).player.effects) ∧
      .nullTone ∉ (toned.step event).player.effects ∧
      .toneEnds ∉ (toned.step event).player.effects := by
  have plain : ∀ effect, effect.plain = false →
      effect ∉ (toned.player.step event).effects := by
    intro effect shows there
    rw [calm.plain effect there] at shows
    cases shows
  have began := plain (.returned .playTone 0) rfl
  have unheard : toneCalls (toned.player.step event).effects = [] := by
    apply List.filterMap_eq_nil_iff.mpr
    intro effect there
    cases effect with
    | toneCallback evt arg => exact absurd there (plain _ rfl)
    | _ => rfl
  refine ⟨?_, fun evt arg => plain _ rfl, plain _ rfl, plain _ rfl⟩
  have heard : (toned.step event).heard = toned.heard := by
    simp only [Toned.step]
    rw [if_neg began, unheard]
    simp
  exact {
    toning := by
      intro tone
      change (toned.player.step event).tone = true at tone
      rw [calm.tone] at tone
      exact heard.trans (held.toning tone)
    silent := by
      intro tone
      change (toned.player.step event).tone = false at tone
      rw [calm.tone] at tone
      exact heard.trans (held.silent tone)
    restoring := by
      simp only [Toned.step]
      rw [if_neg (plain .toneEnds rfl), held.restoring]
      split <;> rfl
    queued := by
      intro silent msg there
      change (toned.player.step event).tone = false at silent
      rw [calm.tone] at silent
      rcases calm.queued msg there with old | new
      · exact held.queued silent msg old
      · exact new.trans silent
    handling := by
      intro silent msg here
      change (toned.player.step event).tone = false at silent
      rw [calm.tone] at silent
      rcases calm.handling msg here with old | ⟨queued, tone⟩
      · exact held.handling silent msg old
      · rw [held.queued silent msg queued] at tone
        cases tone }

/-- In front of the end of a tone, nothing that is heard is wrong. -/
theorem Held.sound {event : Event} (next : Held (toned.step event))
    (failed : ∀ url position reset env,
      event = .playTone url position reset env →
      (∃ ret, .returned .playTone ret ∈ (toned.step event).player.effects ∧
        ret ≠ 0) ∨ opens url env = false →
      (toned.step event).player.tone = false)
    (silent : ∀ evt arg,
      .toneCallback evt arg ∉ (toned.step event).player.effects)
    (present : .nullTone ∉ (toned.step event).player.effects)
    (lasts : .toneEnds ∉ (toned.step event).player.effects) :
    toned.Sound event := by
  exact {
    failed := failed
    once := by
      intro calls heard
      cases tone : (toned.step event).player.tone with
      | true =>
          rw [next.toning tone] at heard
          exact (Option.some.inj heard).symm
      | false =>
          rw [next.silent tone] at heard
          cases heard
    arg := fun evt arg there => absurd there (silent evt arg)
    present := present
    reopened := fun there => absurd there lasts
    restored := by
      intro state position msg reset env restoring
      rw [held.restoring] at restoring
      cases restoring }

theorem Held.playTone (url : Option Url) (position : Option Int) (reset : Bool)
    (env : OpenEnv) (orderly : toned.Orderly (.playTone url position reset env)) :
    Held (toned.step (.playTone url position reset env)) ∧
      toned.Sound (.playTone url position reset env) := by
  obtain ⟨silent, opened⟩ := orderly
  have shown : (toned.player.step (.playTone url position reset env)).effects =
      [.setDataSource url, .returned .playTone 0] :=
    toned.player.clear.effects_playerPlaytone url position reset env silent
  have tone : (toned.player.step (.playTone url position reset env)).tone =
      true :=
    toned.player.clear.tone_playerPlaytone url position reset env
  have holds : Held (toned.step (.playTone url position reset env)) := by
    exact {
      toning := by
        intro _
        simp only [Toned.step]
        rw [shown, if_pos (by simp)]
      silent := by
        intro over_
        change (toned.player.step _).tone = false at over_
        rw [tone] at over_
        cases over_
      restoring := by
        simp only [Toned.step]
        rw [shown, if_neg (by simp)]
        rfl
      queued := by
        intro over_
        change (toned.player.step _).tone = false at over_
        rw [tone] at over_
        cases over_
      handling := by
        intro over_
        change (toned.player.step _).tone = false at over_
        rw [tone] at over_
        cases over_ }
  refine ⟨holds, held.sound holds ?_ ?_ ?_ ?_⟩
  · rintro _ _ _ _ ⟨⟩ (⟨ret, there, refused⟩ | unopened)
    · change _ ∈ (toned.player.step _).effects at there
      rw [shown] at there
      simp only [List.mem_cons, reduceCtorEq, false_or, List.not_mem_nil,
        or_false, Effect.returned.injEq, true_and] at there
      exact absurd there refused
    · rw [opened] at unopened
      cases unopened
  · intro evt arg there
    change _ ∈ (toned.player.step _).effects at there
    rw [shown] at there
    simp at there
  · change _ ∉ (toned.player.step _).effects
    rw [shown]
    simp
  · change _ ∉ (toned.player.step _).effects
    rw [shown]
    simp

end Steps

/-- A refused tone leaves the one that is played, one that does not open is not
over. -/
theorem Sound.playTone {toned : Toned} {url : Option Url}
    {position : Option Int} {reset : Bool} {env : OpenEnv}
    (sound : toned.Sound (.playTone url position reset env)) :
    toned.Orderly (.playTone url position reset env) := by
  have tone : (toned.step (.playTone url position reset env)).player.tone =
      true :=
    toned.player.clear.tone_playerPlaytone url position reset env
  have failed := sound.failed url position reset env rfl
  rw [tone] at failed
  constructor
  · by_contra toning
    rw [Bool.not_eq_false] at toning
    have refused : .returned .playTone (-1) ∈
        (toned.step (.playTone url position reset env)).player.effects := by
      change _ ∈ (Player.playerPlaytone _ url position reset env).effects
      unfold Player.playerPlaytone
      rw [if_pos (show toned.player.clear.tone = true from toning)]
      exact List.mem_singleton_self _
    cases failed (Or.inl ⟨-1, refused, nofun⟩)
  · by_contra unopened
    rw [Bool.not_eq_true] at unopened
    cases failed (Or.inr unopened)

/-- The end of a tone reads it through `NULL`. -/
theorem Sound.handle {toned : Toned} {reset : Bool} {env : OpenEnv}
    (sound : toned.Sound (.handle reset env)) :
    toned.Orderly (.handle reset env) := by
  intro msg here current
  have present := sound.present
  change .nullTone ∉ (toned.player.clear.handle reset env).effects at present
  unfold Player.handle at present
  rw [show toned.player.clear.handling = _ from here] at present
  change .nullTone ∉ (toned.player.clear.toneHandler msg reset env).effects
    at present
  unfold Player.toneHandler at present
  dsimp only at present
  have fresh : ¬ aplayerGetId msg.data ≠ toned.player.clear.id.setWidth 32 :=
    not_not.mpr current
  rw [if_neg fresh] at present
  refine ⟨?_, ?_, ?_⟩
  · intro stopped
    rw [stopped, if_neg (by decide), if_pos rfl] at present
    exact present (Player.nullTone_endTone _ _ _ _)
  · intro complete
    rw [complete, if_neg (by decide), if_neg (by decide), if_pos rfl] at present
    exact present (Player.nullTone_endTone _ _ _ _)
  · intro error
    rw [error, if_neg (by decide), if_neg (by decide), if_neg (by decide),
      if_pos rfl] at present
    exact present (Player.nullTone_endTone _ _ _ _)

theorem Held.step {toned : Toned} (held : toned.Held) (event : Event)
    (orderly : toned.Orderly event) :
    Held (toned.step event) ∧ toned.Sound event := by
  by_cases tone : ∃ url position reset env,
      event = .playTone url position reset env
  · obtain ⟨url, position, reset, env, rfl⟩ := tone
    exact held.playTone url position reset env orderly
  · have noTone : ∀ url position reset env,
        event ≠ .playTone url position reset env := by
      intro url position reset env same
      exact tone ⟨url, position, reset, env, same⟩
    obtain ⟨next, silent, present, lasts⟩ :=
      held.calmly (held.calm event noTone orderly)
    refine ⟨next, held.sound next ?_ silent present lasts⟩
    intro url position reset env same
    exact absurd same (noTone url position reset env)

/-- A run is sound exactly if no tone is asked for while there is one, none
fails to open, and none ends. -/
theorem sound_iff_orderly (events : List Event) :
    Along step Sound start events ↔ Along step Orderly start events := by
  apply along_iff_along_of_kept Sound Orderly Held
  · intro toned event held orderly
    exact (held.step event orderly).1
  · intro toned event held
    constructor
    · intro sound
      cases event with
      | playTone url position reset env => exact sound.playTone
      | handle reset env => exact sound.handle
      | _ => trivial
    · intro orderly
      exact (held.step event orderly).2
  · exact held_start

/-- The engine and `sys_handler_send` do what they are asked, or the engine
does not take the source. -/
def toneEnv (opens : Bool) : OpenEnv := ⟨opens, true, true⟩

/-- Music is paused at 5000 ms, and a tone is played and stopped. -/
def tonePaused : List Event :=
  [.play (some [0x61]) (toneEnv true) true, .dispatch,
    .handle true (toneEnv true), .pause true,
    .playTone (some [0x62]) (some 5000) true (toneEnv true), .stopTone true,
    .dispatch, .handle true (toneEnv true), .dispatch,
    .handle true (toneEnv true), .dispatch, .handle true (toneEnv true)]

/-- A tone that does not open is played for good, one that is over is read
through `NULL`, and paused music is then taken to play. -/
theorem tone_leavesTraces :
    ¬ Along step Sound start
        [.playTone (some [0x62]) none true (toneEnv false)] ∧
      ¬ Along step Sound start (tonePaused.take 10) ∧
      ¬ Sound (Runs.run step start (tonePaused.take 11))
        (.handle true (toneEnv true)) := by
  refine ⟨?_, ?_, ?_⟩
  · intro along
    exact absurd (along.1.failed _ _ _ _ rfl (Or.inr rfl)) (by decide)
  · intro along
    have last := ((along_append Sound start (tonePaused.take 9)
      [.handle true (toneEnv true)]).mp along).2.1
    exact last.present (by decide)
  · intro sound
    obtain ⟨-, -, paused⟩ := sound.restored .pause 5000
      { tone := false
        data := 0x20001
        resets := 2
        source := 3 } true (toneEnv true) (by decide) (by decide) rfl (by decide)
    exact absurd (paused rfl).2 (by decide)

end Toned

end XR872.Players
