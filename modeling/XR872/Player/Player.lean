/-
The player and its tones.

The calls of the interface and the handlers go on from one lock operation to
the next; their messages wait for the system thread in between. The engine is
outside: it answers each call, and it may report at any time. A user callback
does not use the interface, so the stretch that calls it under the lock is one
step. What a step shows outside is listed in the order in which it happens.
-/

import XR872.Library.BitView

namespace XR872.Players

open BitView

inductive AplayerStates where
  | pause
  | playing
  | preparing
  | prepared
  | stopped
  | resume
  | init
  | none
  | completed
  | error
deriving DecidableEq, Repr

def PLAYER_EVENTS_MEDIA_PREPARED : BitVec 32 := 1

def PLAYER_EVENTS_MEDIA_STOPPED : BitVec 32 := 4

def PLAYER_EVENTS_MEDIA_PLAYBACK_COMPLETE : BitVec 32 := 8

def PLAYER_EVENTS_MEDIA_ERROR : BitVec 32 := 9

def PLAYER_EVENTS_TONE_STOPED : BitVec 32 := 13

def PLAYER_EVENTS_TONE_COMPLETE : BitVec 32 := 14

def PLAYER_EVENTS_TONE_ERROR : BitVec 32 := 15

def aplayerIdAndState (id : BitVec 16) (state : BitVec 32) : BitVec 32 :=
  id.setWidth 32 <<< 16 ||| state

def aplayerGetId (data : BitVec 32) : BitVec 32 := data >>> 16 &&& 0xFFFF

def aplayerGetState (data : BitVec 32) : BitVec 32 := data &&& 0xFFFF

abbrev Url := List Byte

/-- "http://" or "https://"; a URL that is `NULL` is taken for neither. -/
def isHttp (url : Option Url) : Bool :=
  [0x68#8, 0x74#8, 0x74#8, 0x70#8, 0x3a#8, 0x2f#8, 0x2f#8].isPrefixOf
      (url.getD []) ||
    [0x68#8, 0x74#8, 0x74#8, 0x70#8, 0x73#8, 0x3a#8, 0x2f#8, 0x2f#8].isPrefixOf
      (url.getD [])

/-- A message in the queue of the system thread, with the number of resets when
it was posted and the source that the engine had then. -/
structure Msg where
  /-- The handler is `tone_handler` and not `player_handler`. -/
  tone : Bool
  data : BitVec 32
  resets : Nat
  source : Nat
deriving DecidableEq, Repr

/-- Where the system thread is. -/
inductive Handling where
  | idle
  /-- `player_handler` has found the id right. -/
  | checked (msg : Msg)
  /-- `player_handler_preprocess` has unlocked and is about to call `cb`. -/
  | reporting (evt : BitVec 32) (source : Nat)
  /-- `tone_handler` has read `impl->tone->cb`. -/
  | toneRead (msg : Msg)
deriving DecidableEq, Repr

inductive Call where
  | play
  | stop
  | pause
  | resume
  | seek
  | playTone
  | stopTone
deriving DecidableEq, Repr

inductive Effect where
  | setDataSource (url : Option Url)
  /-- `XPlayerStart` -/
  | start
  | seekTo (ms : Int)
  | callback (evt : BitVec 32) (source : Nat)
  | toneCallback (evt : BitVec 32) (arg : Option Nat)
  /-- `player_handler_preprocess` acts on a message, posted after so many
  resets, after so many. -/
  | acts (posted now : Nat)
  | toneEnds
  /-- A tone that is `NULL` is read. -/
  | nullTone
  | returned (call : Call) (ret : Int)
deriving DecidableEq, Repr

structure Player where
  state : AplayerStates
  url : Option Url
  pauseTime : Int
  /-- `tone` is `my_tone` and not `NULL`. -/
  tone : Bool
  /-- `my_tone.arg` -/
  toneArg : Nat
  id : BitVec 16
  queue : List Msg
  handling : Handling
  resets : Nat
  /-- The number of sources that the engine has been given. -/
  source : Nat
  effects : List Effect
deriving DecidableEq, Repr

/-- What `XPlayerSetDataSourceUrl`, `XPlayerPrepareAsync` and
`sys_handler_send` answer; true is for success. -/
structure OpenEnv where
  setDataSource : Bool
  prepareAsync : Bool
  sent : Bool
deriving DecidableEq, Repr

/-- `set_url` succeeds. -/
def opens (url : Option Url) (env : OpenEnv) : Bool :=
  env.setDataSource && (!isHttp url || env.prepareAsync)

inductive Report where
  | prepared
  | playbackComplete
  | error
deriving DecidableEq, Repr

def Report.evt : Report → BitVec 32
  | prepared => PLAYER_EVENTS_MEDIA_PREPARED
  | playbackComplete => PLAYER_EVENTS_MEDIA_PLAYBACK_COMPLETE
  | error => PLAYER_EVENTS_MEDIA_ERROR

/-- A call of the interface, a report of the engine, or a stretch of a handler,
with what the engine and `sys_handler_send` answer. -/
inductive Event where
  | play (url : Option Url) (env : OpenEnv) (reset : Bool)
  | stop (reset sent : Bool)
  | pause (ok : Bool)
  | resume (ok : Bool)
  | seek (ms : Int) (ok : Bool)
  /-- No position where `XPlayerGetCurrentPosition` fails. -/
  | playTone (url : Option Url) (position : Option Int) (reset : Bool)
      (env : OpenEnv)
  | stopTone (sent : Bool)
  | toneCreate (arg : Nat)
  | report (report : Report) (sent : Bool)
  | dispatch
  | handle (reset : Bool) (env : OpenEnv)
deriving DecidableEq, Repr

namespace Player

/-- Behind `player_create`. -/
def start : Player :=
  { state := .init
    url := none
    pauseTime := 0
    tone := false
    toneArg := 0
    id := 0
    queue := []
    handling := .idle
    resets := 0
    source := 0
    effects := [] }

variable (player : Player)

def emit (effect : Effect) : Player :=
  { player with effects := player.effects ++ [effect] }

/-- To `tone_handler` or to `player_handler`, as `set_player_handler` finds. -/
def send (evt : BitVec 32) (sent : Bool) : Player :=
  if sent then
    { player with
      queue := player.queue ++
        [{ tone := player.tone
           data := aplayerIdAndState player.id evt
           resets := player.resets
           source := player.source }] }
  else player

/-- False for -1. -/
def setUrl (url : Option Url) (env : OpenEnv) : Bool × Player :=
  let asked := player.emit (.setDataSource url)
  if env.setDataSource then
    let opened := { asked with source := asked.source + 1 }
    if isHttp url then (env.prepareAsync, opened)
    else (true, opened.send PLAYER_EVENTS_MEDIA_PREPARED env.sent)
  else (false, asked)

def reset (ok : Bool) : Player :=
  if ok then
    { player with
      id := player.id + 1
      resets := player.resets + 1 }
  else player

/-- Reads from `impl->tone`. -/
def readTone : Player := if player.tone then player else player.emit .nullTone

def readToneArg : Option Nat :=
  if player.tone then some player.toneArg else none

/-! ### Handlers -/

def seekPaused : Player :=
  if player.pauseTime ≠ 0 then
    { player.emit (.seekTo player.pauseTime) with pauseTime := 0 }
  else player

def playUnpaused : Player :=
  if player.state ≠ .pause then player.emit .start else player

/-- `player_handler_preprocess` as far as its unlock, or to its end. -/
def playerHandlerPreprocess (msg : Msg) (reset : Bool) : Player :=
  let evt := aplayerGetState msg.data
  let acting := player.emit (.acts msg.resets player.resets)
  if evt = PLAYER_EVENTS_MEDIA_PREPARED then
    { (acting.seekPaused.emit (.callback evt msg.source)).playUnpaused with
      state := .playing
      handling := .idle }
  else if evt = PLAYER_EVENTS_MEDIA_PLAYBACK_COMPLETE ∨
      evt = PLAYER_EVENTS_MEDIA_ERROR then
    { acting.reset reset with
      state := .stopped
      handling := .reporting evt msg.source }
  else { acting with handling := .reporting evt msg.source }

def endTone (evt : BitVec 32) (reset : Bool) (env : OpenEnv) : Player :=
  let ended := ({ player with tone := false }.emit .toneEnds).reset reset
  let music :=
    if ended.state ≠ .stopped ∧ ended.state ≠ .init then
      (ended.setUrl ended.url env).2
    else ended
  -- the argument of the call is evaluated behind `impl->tone = NULL`
  music.readTone.emit (.toneCallback evt music.readToneArg)

/-- `tone_handler` from its lock on. -/
def toneHandler (msg : Msg) (reset : Bool) (env : OpenEnv) : Player :=
  let evt := aplayerGetState msg.data
  if aplayerGetId msg.data ≠ player.id.setWidth 32 then player
  else if evt = PLAYER_EVENTS_MEDIA_PREPARED then player.emit .start
  else if evt = PLAYER_EVENTS_TONE_STOPED then
    player.endTone PLAYER_EVENTS_TONE_STOPED reset env
  else if evt = PLAYER_EVENTS_MEDIA_PLAYBACK_COMPLETE then
    player.endTone PLAYER_EVENTS_TONE_COMPLETE reset env
  else if evt = PLAYER_EVENTS_MEDIA_ERROR then
    player.endTone PLAYER_EVENTS_TONE_ERROR reset env
  else player

/-- The first message, up to the lock of `tone_handler` or to the unlock of
`player_handler`. -/
def dispatch : Player :=
  match player.handling, player.queue with
  | .idle, msg :: rest =>
      let taken := { player with queue := rest }
      if msg.tone then { taken.readTone with handling := .toneRead msg }
      else if aplayerGetId msg.data ≠ player.id.setWidth 32 then taken
      else { taken with handling := .checked msg }
  | _, _ => player

def handle (reset : Bool) (env : OpenEnv) : Player :=
  match player.handling with
  | .idle => player
  | .checked msg => player.playerHandlerPreprocess msg reset
  | .reporting evt source =>
      { player.emit (.callback evt source) with handling := .idle }
  | .toneRead msg =>
      { player.toneHandler msg reset env with handling := .idle }

/-! ### Calls -/

def refuse (call : Call) : Player := player.emit (.returned call (-1))

def playerSeturl (url : Option Url) (env : OpenEnv) (reset : Bool) : Player :=
  if url = none then player.refuse .play
  else if player.tone then player.refuse .play
  else
    let preparing :=
      { player with
        state := .preparing
        pauseTime := 0
        url := url }
    let given := preparing.setUrl url env
    if given.1 then given.2.emit (.returned .play 0)
    else { given.2.reset reset with state := .stopped }.refuse .play

def playerStop (reset sent : Bool) : Player :=
  if player.tone then player.refuse .stop
  else
    ({ player.reset reset with state := .stopped }.send
      PLAYER_EVENTS_MEDIA_STOPPED sent).emit (.returned .stop 0)

def playerPause (ok : Bool) : Player :=
  if player.tone then player.refuse .pause
  else
    { player with state := .pause }.emit
      (.returned .pause (if ok then 0 else -1))

def playerResume (ok : Bool) : Player :=
  if player.tone then player.refuse .resume
  else
    { player.emit .start with
      pauseTime := 0
      state := .playing }.emit (.returned .resume (if ok then 0 else -1))

def playerSeek (ms : Int) (ok : Bool) : Player :=
  if player.tone then player.refuse .seek
  else
    ({ player with pauseTime := ms }.emit (.seekTo ms)).emit
      (.returned .seek (if ok then 0 else -1))

def playerPlaytone (url : Option Url) (position : Option Int) (reset : Bool)
    (env : OpenEnv) : Player :=
  if player.tone then player.refuse .playTone
  else
    let toning :=
      { { player with pauseTime := position.getD player.pauseTime }.reset
          reset with
        tone := true }
    -- `player_tone_play` returns 0, whatever `set_url` does
    (toning.setUrl url env).2.emit (.returned .playTone 0)

def playerStoptone (sent : Bool) : Player :=
  if player.tone then
    (player.send PLAYER_EVENTS_TONE_STOPED sent).emit (.returned .stopTone 0)
  else player.refuse .stopTone

def act : Event → Player
  | .play url env reset => player.playerSeturl url env reset
  | .stop reset sent => player.playerStop reset sent
  | .pause ok => player.playerPause ok
  | .resume ok => player.playerResume ok
  | .seek ms ok => player.playerSeek ms ok
  | .playTone url position reset env =>
      player.playerPlaytone url position reset env
  | .stopTone sent => player.playerStoptone sent
  | .toneCreate arg => { player with toneArg := arg }
  | .report report sent => player.send report.evt sent
  | .dispatch => player.dispatch
  | .handle reset env => player.handle reset env

def clear : Player := { player with effects := [] }

/-- One step, with its own effects only. -/
def step (event : Event) : Player := player.clear.act event

end Player

namespace Player

variable (player : Player)

/-! ### What a part of a step leaves as it is -/

@[simp] theorem effects_clear : player.clear.effects = [] := rfl

@[simp] theorem source_clear : player.clear.source = player.source := rfl

@[simp] theorem effects_emit (effect : Effect) :
    (player.emit effect).effects = player.effects ++ [effect] := rfl

@[simp] theorem state_emit (effect : Effect) :
    (player.emit effect).state = player.state := rfl

@[simp] theorem tone_emit (effect : Effect) :
    (player.emit effect).tone = player.tone := rfl

@[simp] theorem effects_send (evt : BitVec 32) (sent : Bool) :
    (player.send evt sent).effects = player.effects := by
  unfold send
  split <;> rfl

@[simp] theorem state_send (evt : BitVec 32) (sent : Bool) :
    (player.send evt sent).state = player.state := by
  unfold send
  split <;> rfl

@[simp] theorem source_send (evt : BitVec 32) (sent : Bool) :
    (player.send evt sent).source = player.source := by
  unfold send
  split <;> rfl

@[simp] theorem tone_send (evt : BitVec 32) (sent : Bool) :
    (player.send evt sent).tone = player.tone := by
  unfold send
  split <;> rfl

@[simp] theorem handling_send (evt : BitVec 32) (sent : Bool) :
    (player.send evt sent).handling = player.handling := by
  unfold send
  split <;> rfl

@[simp] theorem effects_reset (ok : Bool) :
    (player.reset ok).effects = player.effects := by
  unfold reset
  split <;> rfl

@[simp] theorem source_reset (ok : Bool) :
    (player.reset ok).source = player.source := by
  unfold reset
  split <;> rfl

@[simp] theorem tone_reset (ok : Bool) :
    (player.reset ok).tone = player.tone := by
  unfold reset
  split <;> rfl

@[simp] theorem queue_reset (ok : Bool) :
    (player.reset ok).queue = player.queue := by
  unfold reset
  split <;> rfl

@[simp] theorem handling_reset (ok : Bool) :
    (player.reset ok).handling = player.handling := by
  unfold reset
  split <;> rfl

@[simp] theorem effects_setUrl (url : Option Url) (env : OpenEnv) :
    (player.setUrl url env).2.effects =
      player.effects ++ [.setDataSource url] := by
  unfold setUrl
  dsimp only
  split
  · split
    · rfl
    · exact effects_send _ _ _
  · rfl

@[simp] theorem tone_setUrl (url : Option Url) (env : OpenEnv) :
    (player.setUrl url env).2.tone = player.tone := by
  unfold setUrl
  dsimp only
  split
  · split
    · rfl
    · exact tone_send _ _ _
  · rfl

@[simp] theorem handling_setUrl (url : Option Url) (env : OpenEnv) :
    (player.setUrl url env).2.handling = player.handling := by
  unfold setUrl
  dsimp only
  split
  · split
    · rfl
    · exact handling_send _ _ _
  · rfl

/-- `set_url` returns 0 exactly where it opens the source. -/
theorem setUrl_fst (url : Option Url) (env : OpenEnv) :
    (player.setUrl url env).1 = opens url env := by
  unfold setUrl opens
  dsimp only
  cases env.setDataSource with
  | false => rfl
  | true =>
      cases isHttp url with
      | false => rfl
      | true => rfl

theorem dispatch_cases :
    player.dispatch = player ∨
      ∃ msg rest, player.handling = .idle ∧ player.queue = msg :: rest ∧
        ((msg.tone = true ∧ player.dispatch =
            { ({ player with queue := rest } : Player).readTone with
              handling := .toneRead msg }) ∨
          (msg.tone = false ∧
            aplayerGetId msg.data ≠ player.id.setWidth 32 ∧
            player.dispatch = { player with queue := rest }) ∨
          (msg.tone = false ∧
            aplayerGetId msg.data = player.id.setWidth 32 ∧
            player.dispatch =
              { player with
                queue := rest
                handling := .checked msg })) := by
  unfold dispatch
  cases handling : player.handling with
  | checked msg => exact Or.inl rfl
  | reporting evt source => exact Or.inl rfl
  | toneRead msg => exact Or.inl rfl
  | idle =>
      cases queue : player.queue with
      | nil => exact Or.inl rfl
      | cons msg rest =>
          refine Or.inr ⟨msg, rest, rfl, rfl, ?_⟩
          dsimp only
          cases tone : msg.tone with
          | true => exact Or.inl ⟨rfl, if_pos rfl⟩
          | false =>
              rw [if_neg Bool.false_ne_true]
              by_cases current :
                  aplayerGetId msg.data = player.id.setWidth 32
              · rw [if_neg (not_not.mpr current)]
                exact Or.inr (Or.inr ⟨rfl, current, rfl⟩)
              · rw [if_pos current]
                exact Or.inr (Or.inl ⟨rfl, current, rfl⟩)

/-- The player is toning behind `player_playtone`, whatever it returns. -/
theorem tone_playerPlaytone (url : Option Url) (position : Option Int)
    (reset : Bool) (env : OpenEnv) :
    (player.playerPlaytone url position reset env).tone = true := by
  unfold playerPlaytone
  dsimp only
  split
  case isTrue toning => exact toning
  case isFalse => simp

theorem effects_playerPlaytone (url : Option Url) (position : Option Int)
    (reset : Bool) (env : OpenEnv) (silent : player.tone = false) :
    (player.playerPlaytone url position reset env).effects =
      player.effects ++ [.setDataSource url] ++ [.returned .playTone 0] := by
  unfold playerPlaytone
  rw [if_neg (Bool.eq_false_iff.mp silent)]
  simp

/-- The end of a tone reads it when it is `NULL`. -/
theorem nullTone_endTone (evt : BitVec 32) (reset : Bool) (env : OpenEnv) :
    .nullTone ∈ (player.endTone evt reset env).effects := by
  unfold endTone
  dsimp only
  have over_ : ∀ music : Player, music.tone = false →
      .nullTone ∈ (music.readTone.emit (.toneCallback evt
        music.readToneArg)).effects := by
    intro music over_
    unfold readTone
    rw [if_neg (Bool.eq_false_iff.mp over_)]
    simp
  apply over_
  split
  · simp
  · simp

/-- Before the call of `cb` there may be a seek, behind it a start. -/
theorem prepared_effects (evt : BitVec 32) (source : Nat) (effect : Effect)
    (shown : effect ∈
      (player.seekPaused.emit (.callback evt source)).playUnpaused.effects) :
    effect ∈ player.effects ∨ effect = .seekTo player.pauseTime ∨
      effect = .callback evt source ∨ effect = .start := by
  unfold playUnpaused at shown
  unfold seekPaused at shown
  split at shown <;> split at shown <;>
    simp only [effects_emit, List.mem_append, List.mem_singleton] at shown <;>
    tauto

theorem readTone_of_tone (tone : player.tone = true) :
    player.readTone = player := by
  unfold readTone
  rw [if_pos tone]

end Player

/-! ### Messages -/

theorem toNat_aplayerIdAndState (id : BitVec 16) (state : BitVec 32)
    (small : state.toNat < 2 ^ 16) :
    (aplayerIdAndState id state).toNat = 2 ^ 16 * id.toNat + state.toNat := by
  have low := id.isLt
  have high : id.toNat * 2 ^ 16 % 2 ^ 32 = 2 ^ 16 * id.toNat := by omega
  unfold aplayerIdAndState
  rw [BitVec.toNat_or, BitVec.toNat_shiftLeft, BitVec.toNat_setWidth,
    Nat.mod_eq_of_lt (by omega : id.toNat < 2 ^ 32), Nat.shiftLeft_eq, high,
    Nat.two_pow_add_eq_or_of_lt small]

theorem aplayerGetId_aplayerIdAndState (id : BitVec 16) (state : BitVec 32)
    (small : state.toNat < 2 ^ 16) :
    aplayerGetId (aplayerIdAndState id state) = id.setWidth 32 := by
  have low := id.isLt
  apply BitVec.eq_of_toNat_eq
  unfold aplayerGetId
  rw [BitVec.toNat_and, BitVec.toNat_ushiftRight,
    toNat_aplayerIdAndState id state small, BitVec.toNat_setWidth,
    show (0xFFFF : BitVec 32).toNat = 2 ^ 16 - 1 from rfl,
    Nat.and_two_pow_sub_one_eq_mod, Nat.shiftRight_eq_div_pow]
  omega

end XR872.Players
