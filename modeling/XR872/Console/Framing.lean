/-
The command lines of a byte stream, however it is cut into interrupts.

What is read determines the lines that are not blank. A pair of `\r` and `\n`
ends one line, unless the interrupt that reads the `\r` finds nothing behind it
and the next byte of all is the `\n`.
-/

import XR872.Console.Service
import XR872.Library.Lines

namespace XR872.Console

open BitView
open Runs
open Memories
open Lines

/-! ### What a stream says -/

structure Framed where
  part : List Byte
  commands : List (List Byte)
deriving DecidableEq, Repr

/-- A byte that is not valid, and a line without its end in the limit, clear
what has begun. -/
def Framed.feed (framed : Framed) (data : Byte) : Framed :=
  if data = lf ∨ data = cr then
    { part := [], commands := framed.commands ++ kept framed.part }
  else if isprint data ∧ framed.part.length + 1 < consoleCmdLineMaxLen then
    { framed with part := framed.part ++ [data] }
  else { framed with part := [] }

def frame (stream : List Byte) : Framed :=
  stream.foldl Framed.feed { part := [], commands := [] }

theorem frame_concat (stream : List Byte) (data : Byte) :
    frame (stream ++ [data]) = (frame stream).feed data :=
  List.foldl_concat ..

/-- What `g_console_rx_data` is at the start is not valid, and there is no line
yet that it could clear. -/
theorem frame_atStart (again : Bool) (stream : List Byte) :
    frame ((rxDataAtStart again).toList ++ stream) = frame stream := by
  cases again <;> rfl

theorem frame_short (stream : List Byte) :
    (frame stream).part.length < consoleCmdLineMaxLen ∧
      ∀ command ∈ (frame stream).commands,
        command.length < consoleCmdLineMaxLen := by
  induction stream using List.reverseRecOn with
  | nil => exact ⟨by decide, by intro command member; cases member⟩
  | append_singleton stream data ih =>
      rw [frame_concat]
      unfold Framed.feed
      split
      · refine ⟨by change 0 < 256; omega, ?_⟩
        intro command member
        rcases List.mem_append.mp member with old | new
        · exact ih.2 command old
        · unfold kept at new
          split at new
          · cases new
          · rw [List.mem_singleton.mp new]
            exact ih.1
      · split
        · next fits =>
            refine ⟨?_, ih.2⟩
            dsimp only
            rw [List.length_append]
            exact fits.2
        · exact ⟨by change 0 < 256; omega, ih.2⟩

def notBlank (commands : List (List Byte)) : List (List Byte) :=
  commands.filter fun command => command ≠ []

theorem notBlank_concat (commands : List (List Byte)) (command : List Byte) :
    notBlank (commands ++ [command]) = notBlank commands ++ kept command := by
  unfold notBlank kept
  rw [List.filter_append]
  congr 1
  by_cases blank : command = []
  · rw [if_pos blank, blank]
    rfl
  · rw [if_neg blank]
    simp [blank]

namespace ConsolePriv

structure Follows (c : ConsolePriv) : Prop where
  commands : (frame c.taken).commands = notBlank c.accepted
  part : (frame c.taken).part =
    if c.line.length < consoleCmdLineMaxLen then c.line else []

namespace Follows

variable {c : ConsolePriv}

theorem line_length (c : ConsolePriv) : c.line.length = c.count :=
  length_load ..

theorem unread (follows : c.Follows) {next : ConsolePriv}
    (taken : next.taken = c.taken) (accepted : next.accepted = c.accepted)
    (line : next.line = c.line) : next.Follows where
  commands := by rw [taken, accepted, follows.commands]
  part := by rw [taken, line, follows.part]

theorem feed_end {framed : Framed} {data : Byte}
    (isEnd : data = lf ∨ data = cr) :
    framed.feed data =
      { part := [], commands := framed.commands ++ kept framed.part } :=
  if_pos isEnd

theorem endLine (follows : c.Follows) (sound : c.Sound) {rxBuf cnt : Nat}
    (at_ : c.rx = some (.loop rxBuf cnt)) (short : cnt < 256)
    (rx : Option RxCode) (outside : ∀ rxBuf cnt, rx ≠ some (.loop rxBuf cnt))
    (rxData : Option Byte) (fifo taken : List Byte)
    (ended : frame taken =
      { part := []
        commands := (frame c.taken).commands ++ kept (frame c.taken).part }) :
    (({ c with
        rx := rx, rxData := rxData, fifo := fifo
        taken := taken }).storeRx rxBuf 0).consoleRxCmdline.Follows := by
  have filling := (sound.inLoop rxBuf cnt at_).1
  obtain ⟨_, closed⟩ := sound.endLine at_ short rx outside rxData fifo taken
  have count : c.line.length = cnt := by
    rw [line_length, c.count_of_loop at_]
  have fits : cnt < consoleCmdLineMaxLen := short
  constructor
  · change (frame taken).commands =
      notBlank (c.accepted ++ [commandAt (store c.memory rxBuf [0])
        c.rxBufIdx])
    rw [closed.commandAt filling, notBlank_concat, ended, follows.commands,
      follows.part, count, if_pos fits]
  · rw [line, count_of_not_inLoop]
    · exact (congrArg Framed.part ended).trans (ite_self []).symm
    · rintro ⟨other, count, inside⟩
      exact outside other count inside

theorem restarted (follows : c.Follows) (rxData : Option Byte)
    (fifo taken : List Byte)
    (cleared : frame taken = { frame c.taken with part := [] }) :
    ({ c with
      rxData := rxData, fifo := fifo, taken := taken
      rxDataCnt := 0 }.retry).Follows where
  commands := by
    change (frame taken).commands = notBlank c.accepted
    rw [cleared, ← follows.commands]
  part := by
    change (frame taken).part = if 0 < 256 then [] else []
    rw [cleared]
    rfl

theorem rxMove (follows : c.Follows) (sound : c.Sound) {next : ConsolePriv}
    (move : RxMove c next) : next.Follows := by
  cases move with
  | idle outside => exact follows
  | begin_ at_ filling =>
      have count : c.count = c.rxDataCnt := by
        unfold count
        rw [at_]
      refine follows.unread ?_ ?_ ?_
      · rfl
      · rfl
      · unfold line
        rw [count]
        rfl
  | noBuf at_ without =>
      refine follows.unread ?_ ?_ ?_
      · rfl
      · rfl
      · unfold line count
        rw [at_]
  | @tooLong rxBuf cnt at_ full =>
      have long : ¬ cnt < consoleCmdLineMaxLen := full
      have part := follows.part
      rw [line_length, c.count_of_loop at_, if_neg long] at part
      apply follows.restarted
      rw [← part]
  | @noMore rxBuf cnt at_ short empty =>
      refine follows.unread ?_ ?_ ?_
      · rfl
      · rfl
      · unfold line
        rw [c.count_of_loop at_]
        rfl
  | @char rxBuf cnt at_ short data rxData fifo next notLf notCr valid =>
      have count : c.line.length = cnt :=
        (line_length c).trans (c.count_of_loop at_)
      have fits : cnt < consoleCmdLineMaxLen := short
      have longer := (sound.char at_ short rxData fifo valid).2
      have fed : frame (c.taken ++ [data]) =
          { frame c.taken with
            part := if cnt + 1 < consoleCmdLineMaxLen then c.line ++ [data] else [] } := by
        rw [frame_concat, Framed.feed, if_neg (not_or.mpr ⟨notLf, notCr⟩),
          follows.part, count, if_pos fits, count]
        by_cases room : cnt + 1 < consoleCmdLineMaxLen
        · rw [if_pos ⟨valid, room⟩, if_pos room]
        · rw [if_neg fun both => room both.2, if_neg room]
      constructor
      · change (frame (c.taken ++ [data])).commands = notBlank c.accepted
        rw [fed, ← follows.commands]
      · rw [longer, List.length_append, count]
        change (frame (c.taken ++ [data])).part = _
        rw [fed]
        rfl
  | @illegal rxBuf cnt at_ short data rxData fifo next notLf notCr invalid =>
      apply follows.restarted
      change frame (c.taken ++ [data]) = _
      rw [frame_concat, Framed.feed, if_neg (not_or.mpr ⟨notLf, notCr⟩),
        if_neg]
      rintro ⟨valid, _⟩
      rw [invalid] at valid
      cases valid
  | endLf at_ short next =>
      apply follows.endLine sound at_ short none
        (by intro _ _ inside; cases inside)
      change frame (c.taken ++ [lf]) = _
      rw [frame_concat, feed_end (.inl rfl)]
  | endCr at_ short next =>
      apply follows.endLine sound at_ short none
        (by intro _ _ inside; cases inside)
      change frame (c.taken ++ [cr]) = _
      rw [frame_concat, feed_end (.inr rfl)]
  | endCrLf at_ short next =>
      apply follows.endLine sound at_ short none
        (by intro _ _ inside; cases inside)
      change frame (c.taken ++ [cr] ++ [lf]) = _
      rw [frame_concat, frame_concat, feed_end (.inr rfl), feed_end (.inl rfl)]
      exact congrArg (Framed.mk []) (List.append_nil _)
  | endCrOther at_ short next notLf =>
      apply follows.endLine sound at_ short (some .restart)
        (by intro _ _ inside; cases inside)
      change frame (c.taken ++ [cr]) = _
      rw [frame_concat, feed_end (.inr rfl)]
  | discarded at_ empty =>
      refine follows.unread ?_ ?_ ?_
      · rfl
      · rfl
      · unfold line count
        rw [at_]
  | discards at_ next =>
      refine follows.unread ?_ ?_ ?_
      · rfl
      · rfl
      · rfl

end Follows

theorem Sound.taskStep_reads {c : ConsolePriv} (sound : c.Sound)
    (written : Nat → Byte) (outside : c.rx = none) :
    (c.taskStep written).taken = c.taken ∧
      (c.taskStep written).accepted = c.accepted ∧
      (c.taskStep written).line = c.line := by
  cases at_ : c.task with
  | cmdExec cmdBufIdx =>
      refine ⟨?_, ?_, sound.line_cmdExec at_ written outside⟩ <;>
        unfold ConsolePriv.taskStep <;> rw [at_]
  | giveBack cmdBufIdx =>
      have count : c.count = c.rxDataCnt := by
        unfold count
        rw [outside]
      unfold ConsolePriv.taskStep
      rw [at_]
      dsimp only
      by_cases without : c.rxBufIdx = consoleInvalidBufIdx
      · rw [if_pos without]
        refine ⟨rfl, rfl, ?_⟩
        unfold line
        rw [count, sound.noBuf without]
        unfold ConsolePriv.count
        dsimp only
        rw [outside]
        exact (load_zero ..).trans (load_zero ..).symm
      · rw [if_neg without]
        exact ⟨rfl, rfl, rfl⟩
  | semaphoreWait =>
      unfold ConsolePriv.taskStep
      rw [at_]
      dsimp only
      split <;> exact ⟨rfl, rfl, rfl⟩
  | stateCheck =>
      unfold ConsolePriv.taskStep
      rw [at_]
      exact ⟨rfl, rfl, rfl⟩
  | getReady =>
      unfold ConsolePriv.taskStep
      rw [at_]
      exact ⟨rfl, rfl, rfl⟩
  | setLast cmdBufIdx =>
      unfold ConsolePriv.taskStep
      rw [at_]
      exact ⟨rfl, rfl, rfl⟩
  | exited =>
      unfold ConsolePriv.taskStep
      rw [at_]
      exact ⟨rfl, rfl, rfl⟩

theorem Follows.consoleStep {c : ConsolePriv} (follows : c.Follows)
    (sound : c.Sound) (event : ConsoleEvent) :
    (consoleStep c event).Follows := by
  cases event with
  | arrive data =>
      refine follows.unread ?_ ?_ ?_
      · rfl
      · rfl
      · rfl
  | interrupt =>
      unfold Console.consoleStep
      dsimp only
      by_cases outside : c.rx = none
      · rw [if_pos outside]
        refine follows.unread ?_ ?_ ?_
        · rfl
        · rfl
        · unfold line count
          rw [outside]
      · rw [if_neg outside]
        exact follows
  | handler => exact follows.rxMove sound c.rxMove
  | task written =>
      unfold Console.consoleStep
      dsimp only
      by_cases outside : c.rx = none
      · rw [if_pos outside]
        obtain ⟨taken, accepted, line⟩ := sound.taskStep_reads written outside
        exact follows.unread taken accepted line
      · rw [if_neg outside]
        exact follows
  | waitFails => exact follows
  | started => exact follows.unread rfl rfl rfl

/-! ### All that came in -/

def Complete (again : Bool) (c : ConsolePriv) : Prop :=
  c.discarded = [] →
    c.taken ++ c.rxData.toList ++ c.fifo =
      (rxDataAtStart again).toList ++ c.arrived

theorem nextRx_waiting (c : ConsolePriv) {data : Byte} {rxData : Option Byte}
    {fifo : List Byte} (next : c.nextRx = some (data, rxData, fifo)) :
    rxData = none ∧ c.rxData.toList ++ c.fifo = data :: fifo := by
  unfold nextRx at next
  split at next
  · next saved isSome =>
      cases next
      rw [isSome]
      exact ⟨rfl, rfl⟩
  · next saved rest isNone isCons =>
      cases next
      rw [isNone, isCons]
      exact ⟨rfl, rfl⟩
  · cases next

theorem Complete.read {again : Bool} {c : ConsolePriv}
    (complete : Complete again c) (kept : c.discarded = []) {data : Byte}
    {rxData : Option Byte} {fifo : List Byte}
    (next : c.nextRx = some (data, rxData, fifo)) :
    rxData = none ∧
      c.taken ++ data :: fifo = (rxDataAtStart again).toList ++ c.arrived := by
  obtain ⟨isNone, waiting⟩ := c.nextRx_waiting next
  have all := complete kept
  rw [List.append_assoc, waiting] at all
  exact ⟨isNone, all⟩

theorem Complete.rxMove {again : Bool} {c next : ConsolePriv}
    (complete : Complete again c) (move : RxMove c next) :
    Complete again next := by
  intro kept
  cases move with
  | @char _ _ at_ short data rxData fifo next =>
      obtain ⟨rfl, all⟩ := complete.read kept next
      change c.taken ++ [data] ++ [] ++ fifo = _
      rw [List.append_nil, List.append_assoc]
      exact all
  | @illegal _ _ at_ short data rxData fifo next =>
      obtain ⟨rfl, all⟩ := complete.read kept next
      change c.taken ++ [data] ++ [] ++ fifo = _
      rw [List.append_nil, List.append_assoc]
      exact all
  | @endLf _ _ at_ short rxData fifo next =>
      obtain ⟨rfl, all⟩ := complete.read kept next
      change c.taken ++ [lf] ++ [] ++ fifo = _
      rw [List.append_nil, List.append_assoc]
      exact all
  | endCr at_ short next =>
      obtain ⟨rfl, all⟩ := complete.read kept next
      change c.taken ++ [cr] ++ [] ++ [] = _
      rw [List.append_nil, List.append_nil]
      exact all
  | @endCrLf _ _ at_ short rxData rest next =>
      obtain ⟨rfl, all⟩ := complete.read kept next
      change c.taken ++ [cr] ++ [lf] ++ [] ++ rest = _
      rw [List.append_nil, List.append_assoc, List.append_assoc]
      exact all
  | @endCrOther _ _ at_ short rxData other rest next =>
      obtain ⟨rfl, all⟩ := complete.read kept next
      change c.taken ++ [cr] ++ [other] ++ rest = _
      rw [List.append_assoc, List.append_assoc]
      exact all
  | discards at_ next =>
      have kept : c.discarded ++ [_] = [] := kept
      simp at kept
  | _ => exact complete kept

theorem Complete.consoleStep {again : Bool} {c : ConsolePriv}
    (complete : Complete again c) (event : ConsoleEvent) :
    Complete again (consoleStep c event) := by
  cases event with
  | arrive data =>
      intro kept
      have all := complete kept
      change c.taken ++ c.rxData.toList ++ (c.fifo ++ [data]) =
        _ ++ (c.arrived ++ [data])
      rw [← List.append_assoc, all, List.append_assoc]
  | interrupt =>
      unfold Console.consoleStep
      dsimp only
      split <;> exact complete
  | handler => exact complete.rxMove c.rxMove
  | task written =>
      unfold Console.consoleStep ConsolePriv.taskStep
      dsimp only
      split
      · split <;> first | exact complete | (split <;> exact complete)
      · exact complete
  | waitFails => exact complete
  | started => exact complete

structure CaughtUp (c : ConsolePriv) : Prop where
  nothing : c.discarded = []
  fifo : c.fifo = []
  rxData : c.rxData = none
  executed : c.executed = c.accepted

/-- Lines shorter than their buffers and written inside them; those that are
not blank the same, whenever the interrupts struck; and one line for each of
`\r`, `\n` and the two together. -/
structure WellFramed (c : ConsolePriv) : Prop where
  short : ∀ command ∈ c.accepted, command.length + 1 ≤ consoleCmdLineMaxLen
  inside : ∀ event, (Console.consoleStep c event).stored = c.stored ∨
    ∃ place, (Console.consoleStep c event).stored = place :: c.stored ∧
      c.Fills place
  chunking : ∀ again memory events,
    let other := run Console.consoleStep (consoleStart again memory) events
    c.CaughtUp → other.CaughtUp → other.arrived = c.arrived →
      notBlank other.executed = notBlank c.executed
  oneEach : c.discarded = [] →
    c.accepted.length = (linesFrom cr lf [] c.taken).length

/-- The handler reads a `\n` as the end of a line of its own, right behind the
`\r` that has ended the line before. -/
def SplitsCrLf (c : ConsolePriv) (event : ConsoleEvent) : Prop :=
  event = .handler ∧ c.discarded = [] ∧
    (∃ rxBuf cnt, c.rx = some (.loop rxBuf cnt) ∧
      cnt < consoleCmdLineMaxLen) ∧
    c.nextRx.map Prod.fst = some lf ∧ c.taken.getLast? = some cr

/-- What holds in every run. -/
structure Reads (again : Bool) (c : ConsolePriv) : Prop where
  sound : c.Sound
  follows : c.Follows
  complete : Complete again c

theorem Reads.consoleStep {again : Bool} {c : ConsolePriv}
    (reads : c.Reads again) (event : ConsoleEvent) :
    (Console.consoleStep c event).Reads again where
  sound := reads.sound.consoleStep event
  follows := reads.follows.consoleStep reads.sound event
  complete := reads.complete.consoleStep event

theorem reads_start (again : Bool) (memory : Nat → Byte) :
    (consoleStart again memory).Reads again where
  sound := sound_start again memory
  follows := ⟨rfl, rfl⟩
  complete := by
    intro _
    change [] ++ (rxDataAtStart again).toList ++ [] = _ ++ []
    rw [List.append_nil, List.append_nil, List.nil_append]

theorem reads_run (again : Bool) (memory : Nat → Byte)
    (events : List ConsoleEvent) :
    (run Console.consoleStep (consoleStart again memory) events).Reads again :=
  run_invariant (Reads again) (fun _ event reads => reads.consoleStep event) _
    (reads_start again memory) events

namespace Reads

variable {again : Bool} {c : ConsolePriv}

theorem short (reads : c.Reads again) (command : List Byte)
    (member : command ∈ c.accepted) :
    command.length + 1 ≤ consoleCmdLineMaxLen := by
  by_cases blank : command = []
  · rw [blank]
    decide
  · have among : command ∈ notBlank c.accepted :=
      List.mem_filter.mpr ⟨member, decide_eq_true blank⟩
    rw [← reads.follows.commands] at among
    exact (frame_short c.taken).2 command among

/-- What has been executed, when all is done, is what the stream says. -/
theorem executed_eq (reads : c.Reads again) (caughtUp : c.CaughtUp) :
    notBlank c.executed = (frame c.arrived).commands := by
  have all := reads.complete caughtUp.nothing
  rw [caughtUp.fifo, caughtUp.rxData] at all
  change c.taken ++ [] ++ [] = _ at all
  rw [List.append_nil, List.append_nil] at all
  rw [caughtUp.executed, ← reads.follows.commands, all, frame_atStart]

theorem wellFramed_iff (reads : c.Reads again) :
    c.WellFramed ↔ (c.discarded = [] →
      c.accepted.length = (linesFrom cr lf [] c.taken).length) := by
  constructor
  · exact WellFramed.oneEach
  · intro oneEach
    refine ⟨reads.short, reads.sound.stores, ?_, oneEach⟩
    intro again memory events other caughtUp otherCaughtUp same
    rw [reads.executed_eq caughtUp,
      (reads_run again memory events).executed_eq otherCaughtUp, same]

end Reads

/-! ### One line for each end -/

def OneEach (c : ConsolePriv) : Prop :=
  c.accepted.length = (linesFrom cr lf [] c.taken).length

theorem lines_concat (c : ConsolePriv) (data : Byte) :
    (linesFrom cr lf [] (c.taken ++ [data])).length =
      (linesFrom cr lf [] c.taken).length +
        if Ends cr lf c.taken.getLast? data then 1 else 0 :=
  length_linesFrom_concat cr lf [] c.taken data (by decide)

theorem lines_plain (c : ConsolePriv) {data : Byte} (notLf : data ≠ lf)
    (notCr : data ≠ cr) :
    (linesFrom cr lf [] (c.taken ++ [data])).length =
      (linesFrom cr lf [] c.taken).length := by
  rw [c.lines_concat, if_neg fun ends => ends.1 ⟨notCr, notLf⟩]
  rfl

theorem lines_cr (c : ConsolePriv) :
    (linesFrom cr lf [] (c.taken ++ [cr])).length =
      (linesFrom cr lf [] c.taken).length + 1 := by
  have ends : Ends cr lf c.taken.getLast? cr :=
    ⟨fun plain => plain.1 rfl, fun pair => absurd pair.1 (by decide)⟩
  rw [c.lines_concat, if_pos ends]

theorem lines_crLf (c : ConsolePriv) :
    (linesFrom cr lf [] (c.taken ++ [cr] ++ [lf])).length =
      (linesFrom cr lf [] c.taken).length + 1 := by
  have pair : ¬ Ends cr lf (c.taken ++ [cr]).getLast? lf := by
    rintro ⟨_, single⟩
    exact single ⟨rfl, List.getLast?_concat⟩
  rw [length_linesFrom_concat cr lf [] _ lf (by decide), if_neg pair,
    c.lines_cr]

theorem OneEach.plain {c : ConsolePriv} (oneEach : c.OneEach) {data : Byte}
    (notLf : data ≠ lf) (notCr : data ≠ cr) :
    c.accepted.length = (linesFrom cr lf [] (c.taken ++ [data])).length := by
  rw [c.lines_plain notLf notCr]
  exact oneEach

/-- and so does one line for a `\r`. -/
theorem OneEach.cr {c : ConsolePriv} (oneEach : c.OneEach) (line : List Byte) :
    (c.accepted ++ [line]).length =
      (linesFrom cr lf [] (c.taken ++ [cr])).length := by
  rw [List.length_append, List.length_singleton, c.lines_cr, oneEach]

/-- A turn that reads no `\n` splits no pair. -/
theorem not_splits_of_data {c : ConsolePriv} {data : Byte}
    {rxData : Option Byte} {fifo : List Byte}
    (next : c.nextRx = some (data, rxData, fifo)) (notLf : data ≠ lf) :
    ¬ c.SplitsCrLf .handler := by
  rintro ⟨_, _, _, isLf, _⟩
  rw [next] at isLf
  exact notLf (Option.some.inj isLf)

theorem not_splits_of_empty {c : ConsolePriv} (next : c.nextRx = none) :
    ¬ c.SplitsCrLf .handler := by
  rintro ⟨_, _, _, isLf, _⟩
  rw [next] at isLf
  cases isLf

theorem oneEach_rxMove {c next : ConsolePriv} (move : RxMove c next)
    (kept : c.discarded = []) (oneEach : c.OneEach) :
    next.OneEach ↔ ¬ c.SplitsCrLf .handler := by
  have crNotLf : cr ≠ lf := by decide
  cases move with
  | char at_ short next notLf notCr =>
      exact iff_of_true (oneEach.plain notLf notCr)
        (not_splits_of_data next notLf)
  | illegal at_ short next notLf notCr =>
      exact iff_of_true (oneEach.plain notLf notCr)
        (not_splits_of_data next notLf)
  | endLf at_ short next =>
      change (c.accepted ++ [_]).length =
        (linesFrom cr lf [] (c.taken ++ [lf])).length ↔ _
      rw [List.length_append, List.length_singleton, c.lines_concat, oneEach]
      by_cases last : c.taken.getLast? = some cr
      · rw [if_neg fun ends => ends.2 ⟨rfl, last⟩]
        apply iff_of_false (by omega)
        intro whole
        exact whole ⟨rfl, kept, ⟨_, _, at_, short⟩, by rw [next]; rfl, last⟩
      · rw [if_pos ⟨fun plain => plain.2 rfl, fun pair => last pair.2⟩]
        apply iff_of_true rfl
        intro splits
        exact last splits.2.2.2.2
  | endCr at_ short next =>
      exact iff_of_true (oneEach.cr _) (not_splits_of_data next crNotLf)
  | endCrLf at_ short next =>
      refine iff_of_true ?_ (not_splits_of_data next crNotLf)
      change (c.accepted ++ [_]).length =
        (linesFrom cr lf [] (c.taken ++ [cr] ++ [lf])).length
      rw [List.length_append, List.length_singleton, c.lines_crLf, oneEach]
  | endCrOther at_ short next notLf =>
      exact iff_of_true (oneEach.cr _) (not_splits_of_data next crNotLf)
  | tooLong at_ full =>
      apply iff_of_true oneEach
      rintro ⟨_, _, ⟨_, _, again, short⟩, _⟩
      rw [at_] at again
      cases again
      exact full short
  | noMore at_ short empty =>
      exact iff_of_true oneEach (not_splits_of_empty empty)
  | _ =>
      apply iff_of_true oneEach
      rintro ⟨_, _, ⟨_, _, inside, _⟩, _⟩
      simp_all

theorem RxMove.discards_or {c next : ConsolePriv} (move : RxMove c next) :
    next.discarded = c.discarded ∨
      next.discarded ≠ [] ∧ next.accepted = c.accepted ∧
        next.taken = c.taken := by
  cases move with
  | discards at_ next => exact .inr ⟨by simp, rfl, rfl⟩
  | _ => exact .inl rfl

theorem Reads.wellFramed_step {again : Bool} {c : ConsolePriv}
    (reads : c.Reads again) (framed : c.WellFramed) (event : ConsoleEvent) :
    (Console.consoleStep c event).WellFramed ↔ ¬ c.SplitsCrLf event := by
  rw [(reads.consoleStep event).wellFramed_iff]
  have same : event ≠ .handler → (Console.consoleStep c event).accepted =
        c.accepted ∧
      (Console.consoleStep c event).taken = c.taken ∧
      (Console.consoleStep c event).discarded = c.discarded := by
    intro other
    cases event with
    | handler => exact absurd rfl other
    | arrive data => exact ⟨rfl, rfl, rfl⟩
    | waitFails => exact ⟨rfl, rfl, rfl⟩
    | started => exact ⟨rfl, rfl, rfl⟩
    | interrupt =>
        unfold Console.consoleStep
        dsimp only
        split <;> exact ⟨rfl, rfl, rfl⟩
    | task written =>
        unfold Console.consoleStep ConsolePriv.taskStep
        dsimp only
        split
        · split <;> first
            | exact ⟨rfl, rfl, rfl⟩
            | (split <;> exact ⟨rfl, rfl, rfl⟩)
        · exact ⟨rfl, rfl, rfl⟩
  by_cases handler : event = .handler
  · subst handler
    have discards := c.rxMove.discards_or
    by_cases kept : c.discarded = []
    · rw [← oneEach_rxMove c.rxMove kept (framed.oneEach kept)]
      constructor
      · intro oneEach
        rcases discards with same | ⟨_, accepted, taken⟩
        · exact oneEach (same.trans kept)
        · change c.rxStep.accepted.length = _
          rw [accepted, taken]
          exact framed.oneEach kept
      · exact fun oneEach _ => oneEach
    · apply iff_of_true
      · intro nothing
        rcases discards with same | ⟨some, _⟩
        · exact absurd (same.symm.trans nothing) kept
        · exact absurd nothing some
      · exact fun splits => kept splits.2.1
  · obtain ⟨accepted, taken, discarded⟩ := same handler
    rw [accepted, taken, discarded]
    exact iff_of_true framed.oneEach fun splits => handler splits.1

end ConsolePriv

open ConsolePriv in
/-- Lines are framed as they should be throughout a run exactly if no turn of
the handler in it splits a pair of `\r` and `\n`. -/
theorem framed_along (again : Bool) (memory : Nat → Byte)
    (events : List ConsoleEvent) :
    Always consoleStep WellFramed (consoleStart again memory) events ↔
      Along consoleStep (fun c event => ¬ c.SplitsCrLf event)
        (consoleStart again memory) events := by
  have start := reads_start again memory
  apply always_iff_along WellFramed _ (Reads again)
  · exact fun c event reads _ _ => reads.consoleStep event
  · exact fun c event reads framed => reads.wellFramed_step framed event
  · exact start
  · exact start.wellFramed_iff.mpr fun _ => rfl

/-- `\r` comes in and is read, then `\n`: two lines are accepted. -/
theorem pair_split_apart :
    ¬ (run consoleStep (consoleStart true fun _ => 0)
        [.arrive cr, .interrupt, .handler, .handler,
          .arrive lf, .interrupt, .handler, .handler]).WellFramed := by
  intro framed
  have oneEach := framed.oneEach rfl
  revert oneEach
  decide +kernel

end XR872.Console
