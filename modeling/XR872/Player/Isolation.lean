/-
What is heard of a source after it was stopped.

A message is known to be stale by 16 bits of the count of resets. They are
compared in one critical section and acted on in the next, a reset that the
engine refuses does not count, and a report of the engine takes the id of the
time it is posted at. The conditions are on what is at hand in front of a step:
what the system thread has checked, what comes next in the queue, and whether
the player has been stopped.
-/

import XR872.Library.Run
import XR872.Player.Player

namespace XR872.Players

open Runs

/-- The player, and the source that `player_stop` has stopped, until a play or
resume call succeeds. -/
structure Watched where
  player : Player
  halted : Option Nat

namespace Watched

def start : Watched := { player := .start, halted := none }

def haltedBy (effects : List Effect) (source : Nat) (halted : Option Nat) :
    Option Nat :=
  if .returned .stop 0 ∈ effects then some source
  else if .returned .play 0 ∈ effects ∨ .returned .resume 0 ∈ effects then none
  else halted

def step (watched : Watched) (event : Event) : Watched :=
  let next := watched.player.step event
  { player := next
    halted := haltedBy next.effects next.source watched.halted }

/-- While stopped, the state stays, nothing is started, and the callback hears
neither of PREPARED nor of COMPLETE of the stopped source; a message is acted
on only if nothing was reset since it was posted. -/
structure Isolated (watched : Watched) (event : Event) : Prop where
  stopped : (watched.step event).halted ≠ none →
    (watched.step event).player.state = .stopped
  notStarted : .start ∈ (watched.step event).player.effects →
    (watched.step event).halted = none
  unheard : ∀ evt source,
    .callback evt source ∈ (watched.step event).player.effects →
    evt = PLAYER_EVENTS_MEDIA_PREPARED ∨
      evt = PLAYER_EVENTS_MEDIA_PLAYBACK_COMPLETE →
    (watched.step event).halted ≠ some source
  fresh : ∀ posted now,
    .acts posted now ∈ (watched.step event).player.effects → posted = now

/-- While stopped, the message is neither PREPARED nor COMPLETE of the stopped
source. -/
def Harmless (halted : Option Nat) (evt : BitVec 32) (source : Nat) : Prop :=
  halted ≠ none → evt ≠ PLAYER_EVENTS_MEDIA_PREPARED ∧
    (evt = PLAYER_EVENTS_MEDIA_PLAYBACK_COMPLETE → halted ≠ some source)

/-- What the steps have to keep to. -/
def Orderly (watched : Watched) : Event → Prop
  | .play url env reset =>
      url ≠ none → opens url env = false → reset = true →
        ∀ msg, watched.player.handling ≠ .checked msg
  | .stop reset _ =>
      (∀ msg, watched.player.handling = .checked msg →
        reset = false ∧ Harmless (some watched.player.source)
          (aplayerGetState msg.data) msg.source) ∧
      ∀ evt source, watched.player.handling = .reporting evt source →
        evt = PLAYER_EVENTS_MEDIA_PLAYBACK_COMPLETE →
          source ≠ watched.player.source
  | .pause _ => watched.halted = none
  | .resume ok => ok = false → watched.halted = none
  | .dispatch =>
      ∀ msg rest, watched.player.handling = .idle →
        watched.player.queue = msg :: rest →
        aplayerGetId msg.data = watched.player.id.setWidth 32 →
          watched.player.resets < msg.resets + 2 ^ 16 ∧
            Harmless watched.halted (aplayerGetState msg.data) msg.source
  | _ => True

end Watched

/-- No tone is played. -/
def Event.toneless : Event → Bool
  | .playTone _ _ _ _ => false
  | _ => true

/-! ### Where a message stands -/

/-- The ids count the resets, and what the system thread has checked is neither
stale nor of a source that was stopped. -/
structure Held (player : Player) (halted : Option Nat) : Prop where
  toneless : player.tone = false
  counted : player.id = BitVec.ofNat 16 player.resets
  queued : ∀ msg ∈ player.queue, msg.tone = false ∧
    msg.resets ≤ player.resets ∧
      aplayerGetId msg.data = (BitVec.ofNat 16 msg.resets).setWidth 32
  checked : ∀ msg, player.handling = .checked msg →
    msg.resets = player.resets ∧
      Watched.Harmless halted (aplayerGetState msg.data) msg.source
  reporting : ∀ evt source, player.handling = .reporting evt source →
    evt ≠ PLAYER_EVENTS_MEDIA_PREPARED ∧
      (evt = PLAYER_EVENTS_MEDIA_PLAYBACK_COMPLETE → halted ≠ some source)
  noTone : ∀ msg, player.handling ≠ .toneRead msg

theorem harmless_none (evt : BitVec 32) (source : Nat) :
    Watched.Harmless none evt source := by
  intro impossible
  exact absurd rfl impossible

namespace Held

variable {player : Player} {halted : Option Nat} (held : Held player halted)

include held

theorem same {next : Player} (tone : next.tone = player.tone)
    (id : next.id = player.id) (resets : next.resets = player.resets)
    (queue : next.queue = player.queue)
    (handling : next.handling = player.handling) : Held next halted := by
  exact {
    toneless := tone.trans held.toneless
    counted := by rw [id, resets, held.counted]
    queued := by
      rw [queue, resets]
      exact held.queued
    checked := by
      rw [handling, resets]
      exact held.checked
    reporting := by
      rw [handling]
      exact held.reporting
    noTone := by
      rw [handling]
      exact held.noTone }

theorem emit (effect : Effect) : Held (player.emit effect) halted :=
  held.same rfl rfl rfl rfl rfl

theorem send (evt : BitVec 32) (small : evt.toNat < 2 ^ 16) (sent : Bool) :
    Held (player.send evt sent) halted := by
  unfold Player.send
  split
  · refine { held with queued := ?_ }
    intro msg queued
    rcases List.mem_append.mp queued with old | new
    · exact held.queued msg old
    · rw [List.mem_singleton.mp new]
      refine ⟨held.toneless, le_rfl, ?_⟩
      change aplayerGetId (aplayerIdAndState player.id evt) = _
      rw [aplayerGetId_aplayerIdAndState player.id evt small, held.counted]
  · exact held

theorem setUrl (url : Option Url) (env : OpenEnv) :
    Held (player.setUrl url env).2 halted := by
  unfold Player.setUrl
  dsimp only
  have asked := held.emit (.setDataSource url)
  have given : Held { player.emit (.setDataSource url) with
      source := (player.emit (.setDataSource url)).source + 1 } halted :=
    asked.same rfl rfl rfl rfl rfl
  split
  · split
    · exact given
    · exact given.send PLAYER_EVENTS_MEDIA_PREPARED (by decide) env.sent
  · exact asked

theorem reset (ok : Bool)
    (unchecked : ok = true → ∀ msg, player.handling ≠ .checked msg) :
    Held (player.reset ok) halted := by
  unfold Player.reset
  split
  case isFalse => exact held
  case isTrue done =>
    exact { held with
      counted := by
        change player.id + 1 = BitVec.ofNat 16 (player.resets + 1)
        rw [held.counted, BitVec.ofNat_add]
        rfl
      queued := by
        intro msg queued
        obtain ⟨tone, posted, id⟩ := held.queued msg queued
        exact ⟨tone, Nat.le_succ_of_le posted, id⟩
      checked := fun msg here => absurd here (unchecked done msg) }

theorem release : Held player none := by
  exact { held with
    checked := fun msg here => ⟨(held.checked msg here).1, harmless_none _ _⟩
    reporting := fun evt source here =>
      ⟨(held.reporting evt source here).1, nofun⟩ }

theorem idle : Held { player with handling := .idle } halted := by
  exact { held with
    checked := nofun
    reporting := nofun
    noTone := nofun }

theorem resetBehind (ok : Bool) :
    Held { player.reset ok with handling := .idle } halted := by
  cases ok with
  | false => exact held.idle
  | true => exact held.idle.reset true fun _ msg => nofun

/-- The system thread is about to call `cb`. -/
theorem report (evt : BitVec 32) (source : Nat)
    (noPrepared : evt ≠ PLAYER_EVENTS_MEDIA_PREPARED)
    (elsewhere : evt = PLAYER_EVENTS_MEDIA_PLAYBACK_COMPLETE →
      halted ≠ some source) :
    Held { player with handling := .reporting evt source } halted := by
  exact { held with
    checked := nofun
    reporting := by
      intro other from_ same
      cases same
      exact ⟨noPrepared, elsewhere⟩
    noTone := nofun }

theorem prepared (evt : BitVec 32) (source : Nat) :
    Held (player.seekPaused.emit (.callback evt source)).playUnpaused halted := by
  have sought : Held player.seekPaused halted := by
    unfold Player.seekPaused
    split
    · exact held.same rfl rfl rfl rfl rfl
    · exact held
  unfold Player.playUnpaused
  split
  · exact (sought.emit _).emit _
  · exact sought.emit _

theorem halt (source : Nat)
    (checked : ∀ msg, player.handling = .checked msg →
      Watched.Harmless (some source) (aplayerGetState msg.data) msg.source)
    (reporting : ∀ evt other, player.handling = .reporting evt other →
      evt = PLAYER_EVENTS_MEDIA_PLAYBACK_COMPLETE → other ≠ source) :
    Held player (some source) := by
  exact { held with
    checked := fun msg here => ⟨(held.checked msg here).1, checked msg here⟩
    reporting := by
      intro evt other here
      refine ⟨(held.reporting evt other here).1, ?_⟩
      intro complete same
      exact reporting evt other here complete (Option.some.inj same).symm }

end Held

namespace Watched

/-! ### Steps -/

def Quiet (effects : List Effect) : Prop :=
  ∀ effect ∈ effects, effect ≠ .start ∧
    (∀ evt source, effect ≠ .callback evt source) ∧
      ∀ posted now, effect ≠ .acts posted now

structure Kept (watched : Watched) : Prop where
  held : Held watched.player watched.halted
  stopped : watched.halted ≠ none → watched.player.state = .stopped

theorem kept_start : Kept start := by
  exact {
    held := {
      toneless := rfl
      counted := rfl
      queued := nofun
      checked := nofun
      reporting := nofun
      noTone := nofun }
    stopped := fun halted => absurd rfl halted }

theorem isolated_of_quiet {watched : Watched} {event : Event}
    (quiet : Quiet (watched.step event).player.effects)
    (kept : Kept (watched.step event)) : watched.Isolated event := by
  exact {
    stopped := kept.stopped
    notStarted := fun started => absurd rfl (quiet _ started).1
    unheard := fun evt source heard => absurd rfl ((quiet _ heard).2.1 evt source)
    fresh := fun posted now acted => absurd rfl ((quiet _ acted).2.2 posted now) }

def Unreturned (effects : List Effect) : Prop :=
  .returned .stop 0 ∉ effects ∧ .returned .play 0 ∉ effects ∧
    .returned .resume 0 ∉ effects

theorem haltedBy_same {effects : List Effect} (source : Nat)
    (halted : Option Nat) (unreturned : Unreturned effects) :
    haltedBy effects source halted = halted := by
  obtain ⟨stop, play, resume⟩ := unreturned
  unfold haltedBy
  rw [if_neg stop, if_neg (not_or.mpr ⟨play, resume⟩)]

section Steps

variable {watched : Watched} (kept : watched.Kept)

include kept

theorem Kept.quietly {event : Event}
    (held : Held (watched.player.step event) watched.halted)
    (stays : (watched.player.step event).state = watched.player.state ∨
      (watched.player.step event).state = .stopped ∨ watched.halted = none)
    (unreturned : Unreturned (watched.player.step event).effects) :
    Kept (watched.step event) := by
  have same : (watched.step event).halted = watched.halted :=
    haltedBy_same _ _ unreturned
  refine ⟨?_, ?_⟩
  · rw [same]
    exact held
  · rw [same]
    intro halted
    rcases stays with stays | stopped | running
    · exact stays.trans (kept.stopped halted)
    · exact stopped
    · exact absurd running halted

theorem Kept.cleared :
    Held watched.player.clear watched.halted :=
  kept.held.same rfl rfl rfl rfl rfl

theorem Kept.quiet {event : Event} {effects : List Effect}
    (held : Held (watched.player.step event) watched.halted)
    (stays : (watched.player.step event).state = watched.player.state ∨
      (watched.player.step event).state = .stopped ∨ watched.halted = none)
    (shown : (watched.player.step event).effects = effects)
    (unreturned : Unreturned effects) (quiet : Quiet effects) :
    Kept (watched.step event) ∧ watched.Isolated event := by
  have keeps := kept.quietly held stays (shown ▸ unreturned)
  exact ⟨keeps, isolated_of_quiet (shown.symm ▸ quiet) keeps⟩

theorem Kept.unseen {event : Event} {next : Player}
    (moves : watched.player.step event = next)
    (held : Held next watched.halted)
    (stays : next.state = watched.player.state) (shown : next.effects = []) :
    Kept (watched.step event) ∧ watched.Isolated event := by
  subst moves
  exact kept.quiet held (Or.inl stays) shown ⟨nofun, nofun, nofun⟩ nofun

theorem Kept.refused {event : Event} (call : Call)
    (refuses : watched.player.step event =
      watched.player.clear.refuse call) :
    Kept (watched.step event) ∧ watched.Isolated event := by
  have shown : (watched.player.step event).effects = [.returned call (-1)] := by
    rw [refuses]
    rfl
  apply kept.quiet (refuses ▸ kept.cleared.emit _) (Or.inl (refuses ▸ rfl)) shown
  · simp [Unreturned]
  · simp [Quiet]

theorem Kept.play (url : Option Url) (env : OpenEnv) (reset : Bool)
    (orderly : watched.Orderly (.play url env reset)) :
    Kept (watched.step (.play url env reset)) ∧
      watched.Isolated (.play url env reset) := by
  by_cases noUrl : url = none
  · apply kept.refused .play
    change Player.playerSeturl _ url env reset = _
    unfold Player.playerSeturl
    rw [if_pos noUrl]
  -- the source is given to the engine
  let preparing : Player :=
    { watched.player.clear with
      state := .preparing
      pauseTime := 0
      url := url }
  have next : watched.player.step (.play url env reset) =
      if opens url env then
        (preparing.setUrl url env).2.emit (.returned .play 0)
      else { (preparing.setUrl url env).2.reset reset with
        state := .stopped }.refuse .play := by
    change Player.playerSeturl _ url env reset = _
    unfold Player.playerSeturl
    rw [if_neg noUrl, if_neg (Bool.eq_false_iff.mp kept.cleared.toneless)]
    dsimp only
    rw [Player.setUrl_fst]
  have given : Held (preparing.setUrl url env).2 watched.halted :=
    (kept.held.same rfl rfl rfl rfl rfl : Held preparing _).setUrl url env
  cases opened : opens url env with
  | true =>
      rw [if_pos opened] at next
      have effects : (watched.player.step (.play url env reset)).effects =
          [.setDataSource url, .returned .play 0] := by
        rw [next]
        simp [preparing]
      have halted : (watched.step (.play url env reset)).halted = none := by
        change haltedBy _ _ _ = _
        rw [effects, haltedBy, if_neg (by simp), if_pos (by simp)]
      have keeps : Kept (watched.step (.play url env reset)) := by
        refine ⟨?_, fun stopped => absurd halted stopped⟩
        rw [halted]
        change Held (watched.player.step (.play url env reset)) none
        rw [next]
        exact (given.emit _).release
      refine ⟨keeps, isolated_of_quiet ?_ keeps⟩
      change Quiet (watched.player.step _).effects
      rw [effects]
      simp [Quiet]
  | false =>
      rw [if_neg (Bool.eq_false_iff.mp opened)] at next
      have isReset := given.reset reset fun done msg here => by
        rw [Player.handling_setUrl] at here
        exact orderly noUrl opened done msg here
      have effects : (watched.player.step (.play url env reset)).effects =
          [.setDataSource url, .returned .play (-1)] := by
        rw [next]
        simp [Player.refuse, preparing]
      apply kept.quiet ?_ (Or.inr (Or.inl (next ▸ rfl))) effects
      · simp [Unreturned]
      · simp [Quiet]
      · rw [next]
        exact (isReset.same rfl rfl rfl rfl rfl : Held
          { Player.reset _ reset with state := .stopped } _).emit _

theorem Kept.pause (ok : Bool) (orderly : watched.Orderly (.pause ok)) :
    Kept (watched.step (.pause ok)) ∧ watched.Isolated (.pause ok) := by
  have next : watched.player.step (.pause ok) =
      ({ watched.player.clear with state := .pause } : Player).emit
          (.returned .pause (if ok then 0 else -1)) := by
    change Player.playerPause _ ok = _
    unfold Player.playerPause
    rw [if_neg (Bool.eq_false_iff.mp kept.cleared.toneless)]
  have halted : (watched.step (.pause ok)).halted = none := by
    change haltedBy _ _ _ = _
    rw [next]
    unfold haltedBy
    rw [if_neg (by simp [Player.emit]), if_neg (by simp [Player.emit])]
    exact orderly
  have keeps : Kept (watched.step (.pause ok)) := by
    refine ⟨?_, fun stopped => absurd halted stopped⟩
    rw [halted]
    change Held (watched.player.step (.pause ok)) none
    rw [next]
    exact ((kept.held.same rfl rfl rfl rfl rfl : Held
      { watched.player.clear with state := .pause } _).emit _).release
  refine ⟨keeps, isolated_of_quiet ?_ keeps⟩
  change Quiet (watched.player.step _).effects
  rw [next]
  simp [Quiet, Player.emit]

theorem Kept.resume (ok : Bool) (orderly : watched.Orderly (.resume ok)) :
    Kept (watched.step (.resume ok)) ∧ watched.Isolated (.resume ok) := by
  have next : watched.player.step (.resume ok) =
      { watched.player.clear.emit .start with
        pauseTime := 0
        state := .playing }.emit
          (.returned .resume (if ok then 0 else -1)) := by
    change Player.playerResume _ ok = _
    unfold Player.playerResume
    rw [if_neg (Bool.eq_false_iff.mp kept.cleared.toneless)]
  have halted : (watched.step (.resume ok)).halted = none := by
    change haltedBy _ _ _ = _
    rw [next]
    unfold haltedBy
    rw [if_neg (by simp [Player.emit])]
    cases ok with
    | true => rw [if_pos (by simp [Player.emit])]
    | false =>
        rw [if_neg (by simp [Player.emit])]
        exact orderly rfl
  have held : Held (watched.step (.resume ok)).player none := by
    change Held (watched.player.step (.resume ok)) none
    rw [next]
    exact (((kept.cleared.emit .start).same rfl rfl rfl rfl rfl : Held
      { watched.player.clear.emit .start with
        pauseTime := 0
        state := .playing } _).emit _).release
  refine ⟨⟨halted.symm ▸ held, fun stopped => absurd halted stopped⟩, ?_⟩
  exact {
    stopped := fun stopped => absurd halted stopped
    notStarted := fun _ => halted
    unheard := by
      intro evt source _ _
      rw [halted]
      nofun
    fresh := by
      intro posted now acted
      change _ ∈ (watched.player.step _).effects at acted
      rw [next] at acted
      simp [Player.emit] at acted }

theorem Kept.seek (ms : Int) (ok : Bool) :
    Kept (watched.step (.seek ms ok)) ∧ watched.Isolated (.seek ms ok) := by
  have next : watched.player.step (.seek ms ok) =
      (({ watched.player.clear with pauseTime := ms } : Player).emit (.seekTo ms)).emit
          (.returned .seek (if ok then 0 else -1)) := by
    change Player.playerSeek _ ms ok = _
    unfold Player.playerSeek
    rw [if_neg (Bool.eq_false_iff.mp kept.cleared.toneless)]
  have shown : (watched.player.step (.seek ms ok)).effects =
      [.seekTo ms, .returned .seek (if ok then 0 else -1)] := by
    rw [next]
    rfl
  apply kept.quiet ?_ (Or.inl (next ▸ rfl)) shown
  · simp [Unreturned]
  · simp [Quiet]
  · rw [next]
    exact ((kept.held.same rfl rfl rfl rfl rfl : Held
      { watched.player.clear with pauseTime := ms } _).emit _).emit _

theorem Kept.report (report : Report) (sent : Bool) :
    Kept (watched.step (.report report sent)) ∧
      watched.Isolated (.report report sent) := by
  have small : report.evt.toNat < 2 ^ 16 := by
    cases report <;> decide
  exact kept.unseen rfl (kept.cleared.send report.evt small sent)
    (Player.state_send _ _ _) (Player.effects_send _ _ _)

theorem Kept.toneCreate (arg : Nat) :
    Kept (watched.step (.toneCreate arg)) ∧
      watched.Isolated (.toneCreate arg) :=
  kept.unseen rfl (kept.held.same rfl rfl rfl rfl rfl) rfl rfl

theorem Kept.stopTone (sent : Bool) :
    Kept (watched.step (.stopTone sent)) ∧
      watched.Isolated (.stopTone sent) := by
  apply kept.refused .stopTone
  change Player.playerStoptone _ sent = _
  unfold Player.playerStoptone
  rw [if_neg (Bool.eq_false_iff.mp kept.cleared.toneless)]

/-- What comes next in the queue is stale exactly where its id is not the
current one. -/
theorem Kept.dispatch (orderly : watched.Orderly .dispatch) :
    Kept (watched.step .dispatch) ∧ watched.Isolated .dispatch := by
  have queued := kept.cleared.queued
  rcases watched.player.clear.dispatch_cases with
    same | ⟨msg, rest, idle, queue, taken⟩
  · exact kept.unseen same kept.cleared rfl rfl
  have left : ∀ next : Player, next.queue = rest →
      ∀ msg ∈ next.queue, msg ∈ watched.player.clear.queue := by
    intro next isRest msg member
    rw [queue]
    exact List.mem_cons_of_mem _ (isRest ▸ member)
  obtain ⟨noTone, posted, id⟩ := queued msg (queue ▸ List.mem_cons_self)
  rcases taken with ⟨tone, _⟩ | ⟨_, stale, next⟩ | ⟨_, current, next⟩
  · rw [noTone] at tone
    cases tone
  · refine kept.unseen next ?_ rfl rfl
    exact { kept.cleared with
      queued := fun msg member => queued msg (left _ rfl msg member) }
  · obtain ⟨recent, harmless⟩ := orderly msg rest idle queue current
    have fresh : msg.resets = watched.player.resets := by
      rw [id] at current
      have sameId := congrArg BitVec.toNat current
      change _ = ((watched.player.clear.id).setWidth 32).toNat at sameId
      rw [kept.cleared.counted] at sameId
      simp only [BitVec.toNat_setWidth, BitVec.toNat_ofNat] at sameId
      change msg.resets ≤ watched.player.resets at posted
      change _ = watched.player.resets % _ % _ at sameId
      omega
    refine kept.unseen next ?_ rfl rfl
    exact { kept.cleared with
      queued := fun msg member => queued msg (left _ rfl msg member)
      checked := by
        intro other is
        cases is
        exact ⟨fresh, harmless⟩
      reporting := nofun
      noTone := nofun }

theorem Kept.reported (reset : Bool) (env : OpenEnv) (evt : BitVec 32)
    (source : Nat)
    (here : watched.player.handling = .reporting evt source) :
    Kept (watched.step (.handle reset env)) ∧
      watched.Isolated (.handle reset env) := by
  have next : watched.player.step (.handle reset env) =
      { watched.player.clear.emit (.callback evt source) with
        handling := .idle } := by
    change Player.handle _ _ _ = _
    unfold Player.handle
    rw [show watched.player.clear.handling = _ from here]
  have same : (watched.step (.handle reset env)).halted = watched.halted := by
    apply haltedBy_same
    rw [next]
    simp [Unreturned, Player.emit]
  have keeps : Kept (watched.step (.handle reset env)) := by
    refine ⟨?_, ?_⟩
    · rw [same]
      change Held (watched.player.step (.handle reset env)) _
      rw [next]
      exact (kept.cleared.emit _).idle
    · intro halted
      change (watched.player.step (.handle reset env)).state = _
      rw [next]
      exact kept.stopped (same ▸ halted)
  have only : ∀ effect ∈ (watched.step (.handle reset env)).player.effects,
      effect = .callback evt source := by
    intro effect shown
    change effect ∈ (watched.player.step (.handle reset env)).effects at shown
    rw [next] at shown
    exact List.mem_singleton.mp shown
  obtain ⟨noPrepared, elsewhere⟩ := kept.held.reporting evt source here
  refine ⟨keeps, keeps.stopped, fun shown => (nomatch only _ shown), ?_,
    fun posted now shown => (nomatch only _ shown)⟩
  intro heard from_ shown
  rw [same]
  cases only _ shown
  rintro (prepared | complete)
  · exact absurd prepared noPrepared
  · exact elsewhere complete

/-- A step that acts on a fresh message, without `XPlayerStart` or `cb`. -/
theorem Kept.actedOnly {event : Event} {next : Player} {posted : Nat}
    (moves : watched.player.step event = next)
    (held : Held next watched.halted)
    (stays : next.state = watched.player.state ∨ next.state = .stopped)
    (shown : next.effects = [.acts posted posted]) :
    Kept (watched.step event) ∧ watched.Isolated event := by
  subst moves
  have keeps : Kept (watched.step event) := by
    apply kept.quietly held
    · rcases stays with stays | stopped
      · exact Or.inl stays
      · exact Or.inr (Or.inl stopped)
    · rw [shown]
      simp [Unreturned]
  have only : ∀ effect ∈ (watched.step event).player.effects,
      effect = .acts posted posted := by
    intro effect there
    change effect ∈ (watched.player.step event).effects at there
    rw [shown] at there
    exact List.mem_singleton.mp there
  refine ⟨keeps, keeps.stopped, fun there => (nomatch only _ there),
    fun evt source there => (nomatch only _ there), ?_⟩
  intro since now there
  cases only _ there
  rfl

theorem Kept.actedPrepared (reset : Bool) (env : OpenEnv) (msg : Msg)
    (running : watched.halted = none)
    (moves : watched.player.step (.handle reset env) =
      { ((watched.player.clear.emit
          (.acts msg.resets watched.player.resets)).seekPaused.emit
          (.callback PLAYER_EVENTS_MEDIA_PREPARED msg.source)).playUnpaused with
        state := .playing
        handling := .idle })
    (fresh : msg.resets = watched.player.resets) :
    Kept (watched.step (.handle reset env)) ∧
      watched.Isolated (.handle reset env) := by
  have acting := kept.cleared.emit (.acts msg.resets watched.player.resets)
  have shown : ∀ effect ∈ (watched.player.step (.handle reset env)).effects,
      effect = .acts msg.resets watched.player.resets ∨
        (∃ ms, effect = .seekTo ms) ∨
        (∃ evt source, effect = .callback evt source) ∨ effect = .start := by
    intro effect there
    rw [moves] at there
    rcases Player.prepared_effects _ _ _ effect there with
      acts | sought | called | started
    · exact Or.inl (List.mem_singleton.mp acts)
    · exact Or.inr (Or.inl ⟨_, sought⟩)
    · exact Or.inr (Or.inr (Or.inl ⟨_, _, called⟩))
    · exact Or.inr (Or.inr (Or.inr started))
  have unreturned : ∀ call,
      .returned call 0 ∉ (watched.player.step (.handle reset env)).effects := by
    intro call there
    rcases shown _ there with acts | ⟨_, sought⟩ | ⟨_, _, called⟩ | started
    · cases acts
    · cases sought
    · cases called
    · cases started
  have same : (watched.step (.handle reset env)).halted = none :=
    (haltedBy_same _ _ ⟨unreturned _, unreturned _, unreturned _⟩).trans running
  have keeps : Kept (watched.step (.handle reset env)) := by
    apply kept.quietly
    · rw [moves]
      exact ((acting.prepared _ _).same rfl rfl rfl rfl rfl : Held
        { Player.playUnpaused _ with state := .playing } _).idle
    · exact Or.inr (Or.inr running)
    · exact ⟨unreturned _, unreturned _, unreturned _⟩
  refine ⟨keeps, keeps.stopped, fun _ => same, fun _ _ _ _ => ?_, ?_⟩
  · rw [same]
    nofun
  · intro posted now there
    rcases shown _ there with acts | ⟨_, sought⟩ | ⟨_, _, called⟩ | started
    · cases acts
      exact fresh
    · cases sought
    · cases called
    · cases started

theorem Kept.acted (reset : Bool) (env : OpenEnv) (msg : Msg)
    (here : watched.player.handling = .checked msg) :
    Kept (watched.step (.handle reset env)) ∧
      watched.Isolated (.handle reset env) := by
  obtain ⟨fresh, harmless⟩ := kept.held.checked msg here
  have acting := kept.cleared.emit (.acts msg.resets watched.player.resets)
  have next : watched.player.step (.handle reset env) =
      watched.player.clear.playerHandlerPreprocess msg reset := by
    change Player.handle _ _ _ = _
    unfold Player.handle
    rw [show watched.player.clear.handling = _ from here]
  unfold Player.playerHandlerPreprocess at next
  dsimp only at next
  by_cases prepared :
      aplayerGetState msg.data = PLAYER_EVENTS_MEDIA_PREPARED
  · have running : watched.halted = none := by
      by_contra stopped
      exact (harmless stopped).1 prepared
    rw [if_pos prepared, prepared] at next
    exact kept.actedPrepared reset env msg running next fresh
  rw [if_neg prepared] at next
  have elsewhere : aplayerGetState msg.data =
      PLAYER_EVENTS_MEDIA_PLAYBACK_COMPLETE → watched.halted ≠ some msg.source := by
    intro complete stopped
    exact (harmless (stopped ▸ nofun)).2 complete stopped
  by_cases ends :
      aplayerGetState msg.data = PLAYER_EVENTS_MEDIA_PLAYBACK_COMPLETE ∨
        aplayerGetState msg.data = PLAYER_EVENTS_MEDIA_ERROR
  · rw [if_pos ends] at next
    refine kept.actedOnly next ?_ (Or.inr rfl)
      (?_ : _ = [Effect.acts msg.resets msg.resets])
    · exact ((acting.resetBehind reset).same rfl rfl rfl rfl rfl : Held
        { Player.reset _ reset with
          state := .stopped
          handling := .idle } _).report _ _ prepared elsewhere
    · rw [fresh]
      exact Player.effects_reset _ _
  · rw [if_neg ends] at next
    refine kept.actedOnly next ?_ (Or.inl rfl)
      (?_ : _ = [Effect.acts msg.resets msg.resets])
    · exact acting.report _ _ prepared elsewhere
    · rw [fresh]
      rfl

theorem Kept.handle (reset : Bool) (env : OpenEnv) :
    Kept (watched.step (.handle reset env)) ∧
      watched.Isolated (.handle reset env) := by
  cases here : watched.player.handling with
  | idle =>
      refine kept.unseen (?_ : _ = watched.player.clear) kept.cleared rfl rfl
      change Player.handle _ _ _ = _
      unfold Player.handle
      rw [show watched.player.clear.handling = _ from here]
  | checked msg => exact kept.acted reset env msg here
  | reporting evt source => exact kept.reported reset env evt source here
  | toneRead msg => exact absurd here (kept.held.noTone msg)

theorem Kept.stop (reset sent : Bool)
    (orderly : watched.Orderly (.stop reset sent)) :
    Kept (watched.step (.stop reset sent)) ∧
      watched.Isolated (.stop reset sent) := by
  have cleared := kept.cleared
  have next : watched.player.step (.stop reset sent) =
      ({ watched.player.clear.reset reset with
        state := .stopped }.send PLAYER_EVENTS_MEDIA_STOPPED sent).emit
        (.returned .stop 0) := by
    change Player.playerStop _ reset sent = _
    unfold Player.playerStop
    rw [if_neg (Bool.eq_false_iff.mp cleared.toneless)]
  have effects : (watched.player.step (.stop reset sent)).effects =
      [.returned .stop 0] := by
    rw [next]
    simp
  have halted : (watched.step (.stop reset sent)).halted =
      some watched.player.source := by
    change haltedBy _ _ _ = _
    rw [effects, haltedBy, if_pos (List.mem_singleton_self _), next]
    simp [Player.emit]
  have stopped : (watched.step (.stop reset sent)).player.state = .stopped := by
    change (watched.player.step _).state = _
    rw [next]
    simp
  have moved : Held (watched.player.step (.stop reset sent))
      (some watched.player.source) := by
    rw [next]
    have isReset := cleared.reset reset fun done msg here => by
      rw [(orderly.1 msg here).1] at done
      cases done
    have isHalted := isReset.halt watched.player.source
      (fun msg here => by
        rw [Player.handling_reset] at here
        exact (orderly.1 msg here).2)
      (fun evt other here => by
        rw [Player.handling_reset] at here
        exact orderly.2 evt other here)
    exact ((isHalted.same rfl rfl rfl rfl rfl : Held
      { Player.reset _ reset with state := .stopped } _).send
        PLAYER_EVENTS_MEDIA_STOPPED (by decide) sent).emit _
  have keeps : Kept (watched.step (.stop reset sent)) := by
    refine ⟨?_, fun _ => stopped⟩
    rw [halted]
    exact moved
  refine ⟨keeps, isolated_of_quiet ?_ keeps⟩
  change Quiet (watched.player.step _).effects
  rw [effects]
  intro effect is
  rw [List.mem_singleton.mp is]
  exact ⟨nofun, nofun, nofun⟩

theorem Kept.step (event : Event) (toneless : event.toneless = true)
    (orderly : watched.Orderly event) :
    Kept (watched.step event) ∧ watched.Isolated event := by
  cases event with
  | play url env reset => exact kept.play url env reset orderly
  | stop reset sent => exact kept.stop reset sent orderly
  | pause ok => exact kept.pause ok orderly
  | resume ok => exact kept.resume ok orderly
  | seek ms ok => exact kept.seek ms ok
  | playTone url position reset env => cases toneless
  | stopTone sent => exact kept.stopTone sent
  | toneCreate arg => exact kept.toneCreate arg
  | report report sent => exact kept.report report sent
  | dispatch => exact kept.dispatch orderly
  | handle reset env => exact kept.handle reset env

end Steps

theorem along_isolated {watched : Watched} (kept : watched.Kept)
    (events : List Event) (toneless : ∀ event ∈ events, event.toneless = true)
    (orderly : Along step Orderly watched events) :
    Along step Isolated watched events := by
  induction events generalizing watched with
  | nil => trivial
  | cons event rest ih =>
      obtain ⟨next, isolated⟩ :=
        kept.step event (toneless event List.mem_cons_self) orderly.1
      exact ⟨isolated, ih next
        (fun later there => toneless later (List.mem_cons_of_mem _ there))
        orderly.2⟩

/-- In every run without tones whose steps are orderly, what was stopped is
heard of no more. -/
theorem isolated_of_orderly (events : List Event)
    (toneless : ∀ event ∈ events, event.toneless = true)
    (orderly : Along step Orderly start events) :
    Along step Isolated start events :=
  along_isolated kept_start events toneless orderly

/-- The engine and `sys_handler_send` do what they are asked. -/
def willing : OpenEnv := ⟨true, true, true⟩

/-- A local file is played and stopped; the messages come later. -/
def playThenStop : List Event :=
  [.play (some [0x61]) willing true, .stop true true, .dispatch, .dispatch,
    .handle true willing, .handle true willing]

theorem isolated_playThenStop :
    Along step Isolated start playThenStop := by
  apply isolated_of_orderly
  · decide
  · refine ⟨nofun, ⟨nofun, nofun⟩, ?_, ?_, trivial, trivial, trivial⟩
    · rintro msg rest - ⟨⟩ current
      exact absurd current (by decide)
    · rintro msg rest - ⟨⟩ -
      exact ⟨by decide, fun _ => ⟨by decide, by decide⟩⟩

/-- PREPARED is checked before the stop and acted on behind it. -/
def stopChecked : List Event :=
  [.play (some [0x61]) willing true, .dispatch, .stop true true,
    .handle true willing]

/-- The engine reports COMPLETE behind the stop. -/
def stopReported : List Event :=
  [.play (some [0x61]) willing true, .stop true true,
    .report .playbackComplete true, .dispatch, .dispatch, .handle true willing,
    .handle true willing, .dispatch, .handle true willing, .handle true willing]

/-- The engine refuses the reset, and PREPARED stays current. -/
def stopRefused : List Event :=
  [.play (some [0x61]) willing true, .stop false true, .dispatch,
    .handle true willing]

theorem stop_heard :
    ¬ Along step Isolated start stopChecked ∧
      ¬ Along step Isolated start stopReported ∧
      ¬ Along step Isolated start stopRefused := by
  have last : ∀ events event, Along step Isolated start (events ++ [event]) →
      Isolated (Runs.run step start events) event := by
    intro events event along
    exact ((along_append _ _ _ _).mp along).2.1
  refine ⟨?_, ?_, ?_⟩
  · intro along
    have isolated := last stopChecked.dropLast _ along
    exact absurd (isolated.notStarted (by decide)) (by decide)
  · intro along
    have isolated := last stopReported.dropLast _ along
    exact isolated.unheard PLAYER_EVENTS_MEDIA_PLAYBACK_COMPLETE 1 (by decide)
      (Or.inr rfl) (by decide)
  · intro along
    have isolated := last stopRefused.dropLast _ along
    exact absurd (isolated.notStarted (by decide)) (by decide)

end Watched

end XR872.Players
