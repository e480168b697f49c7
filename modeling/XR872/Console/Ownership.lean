/-
Whose the buffers of the console are.

At every point where the interrupt can strike a buffer has one role, and what
was accepted stays as it is until the task has executed it.
-/

import XR872.Console.Moves

namespace XR872.Console

open BitView
open Runs
open Memories

/-! ### Strings in memory -/

structure Holds (memory : Nat → Byte) (bufIdx : Nat) (command : List Byte) :
    Prop where
  short : command.length < consoleCmdLineMaxLen
  noEnd : ∀ data ∈ command, data ≠ 0
  bytes : load memory (consoleBuf bufIdx) (command.length + 1) = command ++ [0]

theorem cString_eq (memory : Nat → Byte) (command : List Byte)
    (place room : Nat) (within : command.length < room)
    (noEnd : ∀ data ∈ command, data ≠ 0)
    (bytes : load memory place (command.length + 1) = command ++ [0]) :
    cString memory place room = command := by
  induction command generalizing place room with
  | nil =>
      obtain ⟨more, rfl⟩ := Nat.exists_eq_add_of_lt within
      have first : memory place = 0 := by
        rw [load_succ] at bytes
        exact (List.cons.inj bytes).1
      rw [Nat.add_right_comm, Nat.add_comm]
      exact if_pos first
  | cons data command ih =>
      obtain ⟨more, rfl⟩ : ∃ more, room = more + 1 :=
        ⟨room - 1, by rw [List.length_cons] at within; omega⟩
      rw [load_succ] at bytes
      obtain ⟨first, rest⟩ := List.cons.inj bytes
      rw [cString, first, if_neg (noEnd data List.mem_cons_self)]
      congr 1
      rw [List.length_cons] at within
      exact ih (place + 1) more (by omega)
        (fun other member => noEnd other (List.mem_cons_of_mem _ member)) rest

theorem Holds.commandAt {memory : Nat → Byte} {bufIdx : Nat}
    {command : List Byte} (holds : Holds memory bufIdx command)
    (inside : bufIdx < 2) : commandAt memory bufIdx = command := by
  have short := holds.short
  refine cString_eq memory command _ _ ?_ holds.noEnd holds.bytes
  unfold consoleCmdLineBufNum consoleCmdLineMaxLen at *
  omega

theorem Holds.congr {memory other : Nat → Byte} {bufIdx : Nat}
    {command : List Byte} (holds : Holds memory bufIdx command)
    (same : ∀ place, place / consoleCmdLineMaxLen = bufIdx →
      other place = memory place) : Holds other bufIdx command where
  short := holds.short
  noEnd := holds.noEnd
  bytes := by
    rw [← holds.bytes]
    apply load_congr
    intro index within
    apply same
    have short := holds.short
    unfold consoleBuf consoleCmdLineMaxLen at *
    omega

theorem isprint_ne_zero {data : Byte} (valid : isprint data = true) :
    data ≠ 0 := by
  intro zero
  rw [zero] at valid
  revert valid
  decide

namespace ConsolePriv

def Turns (c : ConsolePriv) : Prop :=
  Turning c.freeBufBitmap c.readyBufBitmap c.lastCmdBufIdx c.rxBufIdx c.cmdSem
    c.task c.accepted.length c.executed.length

structure Sound (c : ConsolePriv) : Prop where
  turns : c.Turns
  dataCnt : c.rxDataCnt < consoleCmdLineMaxLen
  noBuf : c.rxBufIdx = 2 → c.rxDataCnt = 0
  inLoop : ∀ rxBuf cnt, c.rx = some (.loop rxBuf cnt) →
    c.rxBufIdx < 2 ∧ rxBuf = consoleBuf c.rxBufIdx + cnt ∧
      cnt ≤ consoleCmdLineMaxLen
  text : ∀ data ∈ c.line, isprint data = true
  kept : ∀ turn, c.executed.length ≤ turn → turn < c.accepted.length →
    ∃ command, c.accepted[turn]? = some command ∧
      Holds c.memory (turn % 2) command
  done : c.executed = c.accepted.take c.executed.length

theorem sound_start (again : Bool) (memory : Nat → Byte) :
    (consoleStart again memory).Sound where
  turns :=
    { picked_le := Nat.le_refl _
      accepted_le := Nat.zero_le _
      behind := fun _ => by contradiction
      rxBufIdx := rfl
      isReady := by
        intro idx
        apply iff_of_false Bool.false_ne_true
        rintro ⟨turn, _, before, _⟩
        exact absurd before (Nat.not_lt_zero _)
      isFree := by
        intro idx
        change decide (idx = 1) = true ↔ 0 = 0 ∧ idx = 1
        simp
      hand := fun _ => by intro some; cases some
      lastSet := rfl
      permits := rfl }
  dataCnt := by change 0 < 256; omega
  noBuf := fun _ => rfl
  inLoop := by intro rxBuf cnt at_; cases at_
  text := by intro data member; cases member
  kept := fun turn _ before => absurd before (Nat.not_lt_zero _)
  done := rfl

namespace Sound

variable {c : ConsolePriv}

theorem permits_le (sound : c.Sound) : c.cmdSem ≤ 2 := by
  have permits := sound.turns.permits
  have bound := sound.turns.accepted_le
  have either := sound.turns.picked_or
  omega

theorem room (sound : c.Sound) (filling : c.rxBufIdx < 2) :
    c.accepted.length < c.task.givenBack c.executed.length + 2 := by
  by_contra full
  rw [sound.turns.rxBufIdx, if_neg full] at filling
  omega

theorem isRx (sound : c.Sound) (filling : c.rxBufIdx < 2) :
    c.rxBufIdx = c.accepted.length % 2 := by
  rw [sound.turns.rxBufIdx, if_pos (sound.room filling)]

theorem rx_lt (sound : c.Sound) (filling : c.rxBufIdx ≠ 2) :
    c.rxBufIdx < 2 := by
  have rxBufIdx := sound.turns.rxBufIdx
  split at rxBufIdx
  · omega
  · exact absurd rxBufIdx filling

/-- A line that is not executed yet is not in the buffer being filled. -/
theorem rx_apart (sound : c.Sound) (filling : c.rxBufIdx < 2) (turn : Nat)
    (from_ : c.executed.length ≤ turn) (before : turn < c.accepted.length) :
    turn % 2 ≠ c.rxBufIdx := by
  have room := sound.room filling
  have givenBack : c.task.givenBack c.executed.length ≤
      c.executed.length := by
    cases c.task <;> simp [TaskCode.givenBack]
  rw [sound.isRx filling]
  omega

theorem endLine (sound : c.Sound) {rxBuf cnt : Nat}
    (at_ : c.rx = some (.loop rxBuf cnt)) (short : cnt < 256)
    (rx : Option RxCode) (outside : ∀ rxBuf cnt, rx ≠ some (.loop rxBuf cnt))
    (rxData : Option Byte) (fifo taken : List Byte) :
    (({ c with
        rx := rx, rxData := rxData, fifo := fifo
        taken := taken }).storeRx rxBuf 0).consoleRxCmdline.Sound ∧
      Holds (store c.memory rxBuf [0]) c.rxBufIdx c.line := by
  obtain ⟨filling, isBuf, _⟩ := sound.inLoop rxBuf cnt at_
  have turning := sound.turns
  have permit : c.cmdSem < 0xFFFFFFFF := by
    have few := sound.permits_le
    omega
  have count : c.line.length = cnt := by
    rw [line, length_load, c.count_of_loop at_]
  have line_eq : c.line = load c.memory (consoleBuf c.rxBufIdx) cnt := by
    rw [line, c.count_of_loop at_]
  have closed : Holds (store c.memory rxBuf [0]) c.rxBufIdx c.line := by
    refine ⟨count ▸ short, ?_, ?_⟩
    · intro data member
      exact isprint_ne_zero (sound.text data member)
    · rw [count, isBuf, line_eq]
      exact load_store_append _ _ _ [0]
  refine ⟨?_, closed⟩
  have isRx := sound.isRx filling
  have next := turning.accept filling
  have grown : (c.accepted ++
      [commandAt (store c.memory rxBuf [0]) c.rxBufIdx]).length =
        c.accepted.length + 1 := List.length_append
  refine
    { turns := ?_
      dataCnt := by change 0 < 256; omega
      noBuf := fun _ => rfl
      inLoop := fun other cnt at_ => absurd at_ (outside other cnt)
      text := ?_
      kept := ?_
      done := ?_ }
  · change Turning _ _ _ _ (if c.cmdSem < 0xFFFFFFFF then c.cmdSem + 1
      else c.cmdSem) _ (_ ++ [_]).length _
    rw [if_pos permit]
    change Turning _ _ _ _ _ _ (c.accepted ++
      [commandAt (store c.memory rxBuf [0]) c.rxBufIdx]).length _
    rw [grown]
    exact next
  · intro data member
    rw [line, count_of_not_inLoop] at member
    · cases member
    · rintro ⟨other, cnt, at_⟩
      exact outside other cnt at_
  · intro turn from_ before
    change turn < (c.accepted ++
      [commandAt (store c.memory rxBuf [0]) c.rxBufIdx]).length at before
    change ∃ command, (c.accepted ++
      [commandAt (store c.memory rxBuf [0]) c.rxBufIdx])[turn]? =
        some command ∧ Holds (store c.memory rxBuf [0]) (turn % 2) command
    rw [closed.commandAt filling]
    rw [grown] at before
    by_cases old : turn < c.accepted.length
    · obtain ⟨command, found, holds⟩ := sound.kept turn from_ old
      refine ⟨command, ?_, ?_⟩
      · rw [List.getElem?_append_left old]
        exact found
      · apply holds.congr
        intro place inside
        apply store_outside
        have apart := sound.rx_apart filling turn from_ old
        rw [isBuf]
        unfold consoleBuf consoleCmdLineMaxLen at *
        simp only [List.length_singleton]
        omega
    · have last : turn = c.accepted.length := by omega
      refine ⟨c.line, ?_, ?_⟩
      · rw [last, List.getElem?_append_right (Nat.le_refl _), Nat.sub_self]
        rfl
      · rw [last, ← isRx]
        exact closed
  · change c.executed = (c.accepted ++ [_]).take c.executed.length
    have fewer : c.executed.length ≤ c.accepted.length := by
      rw [sound.done]
      exact List.length_take_le' ..
    rw [List.take_append_of_le_length fewer]
    exact sound.done

theorem retry (sound : c.Sound) (outside : ¬ c.InLoop)
    (filling : c.rxBufIdx < 2) : c.retry.Sound where
  turns := sound.turns
  dataCnt := sound.dataCnt
  noBuf := sound.noBuf
  inLoop := by
    intro rxBuf cnt at_
    cases at_
    exact ⟨filling, rfl, Nat.le_of_lt sound.dataCnt⟩
  text := by
    change ∀ data ∈ load c.memory (consoleBuf c.rxBufIdx) c.rxDataCnt,
      isprint data = true
    rw [← c.count_of_not_inLoop outside]
    exact sound.text
  kept := sound.kept
  done := sound.done

theorem restarted (sound : c.Sound) {rxBuf cnt : Nat}
    (at_ : c.rx = some (.loop rxBuf cnt)) (rxData : Option Byte)
    (fifo taken : List Byte) :
    ({ c with
      rxData := rxData, fifo := fifo, taken := taken
      rxDataCnt := 0 }.retry).Sound := by
  have filling := (sound.inLoop rxBuf cnt at_).1
  exact
    { turns := sound.turns
      dataCnt := by change 0 < 256; omega
      noBuf := fun _ => rfl
      inLoop := by
        intro other count at_
        cases at_
        exact ⟨filling, rfl, Nat.zero_le _⟩
      text := by intro data member; cases member
      kept := sound.kept
      done := sound.done }

/-- Nothing is changed but what waits to be read, and where the handler is
outside of its loop. -/
theorem elsewhere (sound : c.Sound) (rx : Option RxCode)
    (before : ¬ c.InLoop) (behind : ∀ rxBuf cnt, rx ≠ some (.loop rxBuf cnt))
    (rxData : Option Byte) (fifo arrived discarded : List Byte) :
    { c with
      rx := rx, rxData := rxData, fifo := fifo, arrived := arrived
      discarded := discarded }.Sound where
  turns := sound.turns
  dataCnt := sound.dataCnt
  noBuf := sound.noBuf
  inLoop := fun rxBuf cnt at_ => absurd at_ (behind rxBuf cnt)
  text := by
    have text := sound.text
    rw [line, c.count_of_not_inLoop before] at text
    rw [line, count_of_not_inLoop _
      fun ⟨rxBuf, cnt, at_⟩ => behind rxBuf cnt at_]
    exact text
  kept := sound.kept
  done := sound.done

theorem unread (sound : c.Sound) (rxData : Option Byte)
    (fifo arrived discarded : List Byte) :
    { c with
      rxData := rxData, fifo := fifo, arrived := arrived
      discarded := discarded }.Sound :=
  { sound with }

theorem char (sound : c.Sound) {rxBuf cnt : Nat}
    (at_ : c.rx = some (.loop rxBuf cnt)) (short : cnt < 256) {data : Byte}
    (rxData : Option Byte) (fifo : List Byte) (valid : isprint data = true) :
    { (c.take data rxData fifo).storeRx rxBuf data with
      rx := some (.loop (rxBuf + 1) (cnt + 1)) }.Sound ∧
      { (c.take data rxData fifo).storeRx rxBuf data with
        rx := some (.loop (rxBuf + 1) (cnt + 1)) }.line = c.line ++ [data] := by
  obtain ⟨filling, isBuf, _⟩ := sound.inLoop rxBuf cnt at_
  have turning := sound.turns
  have longer : { (c.take data rxData fifo).storeRx rxBuf data with
      rx := some (.loop (rxBuf + 1) (cnt + 1)) }.line = c.line ++ [data] := by
    rw [line, line, c.count_of_loop at_]
    change load (store c.memory rxBuf [data]) (consoleBuf c.rxBufIdx)
      (cnt + 1) = _
    rw [isBuf]
    exact load_store_append _ _ _ [data]
  refine ⟨?_, longer⟩
  refine
    { turns := sound.turns
      dataCnt := sound.dataCnt
      noBuf := sound.noBuf
      inLoop := ?_
      text := ?_
      kept := ?_
      done := sound.done }
  · intro other count at_
    cases at_
    refine ⟨filling, ?_, short⟩
    change rxBuf + 1 = consoleBuf c.rxBufIdx + (cnt + 1)
    omega
  · intro other member
    rw [longer, List.mem_append, List.mem_singleton] at member
    rcases member with old | new
    · exact sound.text other old
    · rw [new]
      exact valid
  · intro turn from_ before
    obtain ⟨command, found, holds⟩ := sound.kept turn from_ before
    refine ⟨command, found, holds.congr ?_⟩
    intro place inside
    apply store_outside
    have apart := sound.rx_apart filling turn from_ before
    rw [isBuf]
    unfold consoleBuf consoleCmdLineMaxLen at *
    simp only [List.length_singleton]
    omega

theorem rxMove {next : ConsolePriv} (sound : c.Sound) (move : RxMove c next) :
    next.Sound := by
  cases move with
  | idle outside => exact sound
  | begin_ at_ filling =>
      apply sound.retry
      · exact fun ⟨_, _, inside⟩ => by rw [at_] at inside; cases inside
      · exact sound.rx_lt filling
  | noBuf at_ without =>
      refine sound.elsewhere (some .discard) ?_ ?_ c.rxData c.fifo c.arrived
        c.discarded
      · exact fun ⟨_, _, inside⟩ => by rw [at_] at inside; cases inside
      · intro _ _ inside
        cases inside
  | tooLong at_ full => exact sound.restarted at_ c.rxData c.fifo c.taken
  | @noMore rxBuf cnt at_ short empty =>
      refine
        { turns := sound.turns
          dataCnt := short
          noBuf := ?_
          inLoop := by intro _ _ inside; cases inside
          text := ?_
          kept := sound.kept
          done := sound.done }
      · intro without
        have filling := (sound.inLoop rxBuf cnt at_).1
        change c.rxBufIdx = 2 at without
        omega
      · have text := sound.text
        rw [line, c.count_of_loop at_] at text
        exact text
  | char at_ short next notLf notCr valid =>
      exact (sound.char at_ short _ _ valid).1
  | illegal at_ short next notLf notCr invalid =>
      exact sound.restarted at_ _ _ _
  | endLf at_ short next =>
      exact (sound.endLine at_ short none (by intro _ _ inside; cases inside)
        _ _ _).1
  | endCr at_ short next =>
      exact (sound.endLine at_ short none (by intro _ _ inside; cases inside)
        _ _ _).1
  | endCrLf at_ short next =>
      exact (sound.endLine at_ short none (by intro _ _ inside; cases inside)
        _ _ _).1
  | endCrOther at_ short next notLf =>
      exact (sound.endLine at_ short (some .restart)
        (by intro _ _ inside; cases inside) _ _ _).1
  | discarded at_ empty =>
      refine sound.elsewhere none ?_ ?_ c.rxData c.fifo c.arrived c.discarded
      · exact fun ⟨_, _, inside⟩ => by rw [at_] at inside; cases inside
      · intro _ _ inside
        cases inside
  | discards at_ next => exact sound.unread _ _ c.arrived _

/-- What is executed is the oldest line that is not, as it was accepted. -/
theorem cmdExec (sound : c.Sound) {cmdBufIdx : Nat}
    (at_ : c.task = .cmdExec cmdBufIdx) :
    cmdBufIdx = c.executed.length % 2 ∧
      c.executed.length < c.accepted.length ∧
      c.executed ++ [commandAt c.memory cmdBufIdx] =
        c.accepted.take (c.executed.length + 1) := by
  have turning := sound.turns
  unfold Turns at turning
  rw [at_] at turning
  have inHand : cmdBufIdx = c.executed.length % 2 := turning.hand _ rfl
  have waiting : c.executed.length < c.accepted.length := turning.picked_le
  obtain ⟨command, found, holds⟩ :=
    sound.kept c.executed.length (Nat.le_refl _) waiting
  refine ⟨inHand, waiting, ?_⟩
  rw [inHand, holds.commandAt (Nat.mod_lt _ (by omega)), List.take_add_one,
    found, ← sound.done]
  rfl

theorem line_cmdExec (sound : c.Sound) {cmdBufIdx : Nat}
    (at_ : c.task = .cmdExec cmdBufIdx) (written : Nat → Byte)
    (outside : c.rx = none) : (c.taskStep written).line = c.line := by
  have inHand := (sound.cmdExec at_).1
  have dataCnt := sound.dataCnt
  have apart : c.rxBufIdx ≠ cmdBufIdx := by
    intro same
    have filling : c.rxBufIdx < 2 := by omega
    have room := sound.room filling
    have isRx := sound.isRx filling
    have waiting := (sound.cmdExec at_).2.1
    rw [at_] at room
    change _ < c.executed.length + 2 at room
    omega
  have notInLoop : ¬ c.InLoop := by
    rintro ⟨_, _, inside⟩
    rw [outside] at inside
    cases inside
  unfold taskStep
  rw [at_]
  dsimp only
  rw [line, line, count_of_not_inLoop c notInLoop, count_of_not_inLoop]
  · dsimp only
    apply load_congr
    intro index within
    apply if_neg
    unfold consoleBuf consoleCmdLineMaxLen at *
    omega
  · exact notInLoop

theorem executes (sound : c.Sound) {cmdBufIdx : Nat}
    (at_ : c.task = .cmdExec cmdBufIdx) (written : Nat → Byte)
    (outside : c.rx = none) : (c.taskStep written).Sound := by
  obtain ⟨inHand, waiting, next⟩ := sound.cmdExec at_
  have turning := sound.turns
  unfold Turns at turning
  rw [at_] at turning
  have grown : (c.executed ++ [commandAt c.memory cmdBufIdx]).length =
      c.executed.length + 1 := List.length_append
  have text : ∀ data ∈ (c.taskStep written).line, isprint data = true := by
    rw [sound.line_cmdExec at_ written outside]
    exact sound.text
  unfold taskStep at text ⊢
  rw [at_] at text ⊢
  dsimp only at text ⊢
  refine
    { turns := ?_
      dataCnt := sound.dataCnt
      noBuf := sound.noBuf
      inLoop := sound.inLoop
      text := text
      kept := ?_
      done := ?_ }
  · unfold Turns
    dsimp only
    rw [grown]
    exact turning.cmdExec
  · intro turn from_ before
    dsimp only at from_ before
    rw [grown] at from_
    obtain ⟨command, found, holds⟩ := sound.kept turn (by omega) before
    refine ⟨command, found, holds.congr ?_⟩
    intro place inside
    apply if_neg
    have bound : c.accepted.length ≤ c.executed.length + 2 :=
      turning.accepted_le
    omega
  · dsimp only
    rw [grown]
    exact next

theorem taskStep (sound : c.Sound) (written : Nat → Byte)
    (outside : c.rx = none) : (c.taskStep written).Sound := by
  have turning := sound.turns
  unfold Turns at turning
  cases at_ : c.task with
  | semaphoreWait =>
      rw [at_] at turning
      unfold ConsolePriv.taskStep
      rw [at_]
      dsimp only
      by_cases none : c.cmdSem = 0
      · rw [if_pos none]
        exact sound
      · rw [if_neg none]
        exact { sound with turns := turning.wake none }
  | stateCheck =>
      rw [at_] at turning
      unfold ConsolePriv.taskStep
      rw [at_]
      dsimp only
      by_cases started : c.state = .start
      · rw [if_pos started]
        exact { sound with turns := turning.check }
      · rw [if_neg started]
        exact { sound with turns := turning.leave }
  | getReady =>
      rw [at_] at turning
      unfold ConsolePriv.taskStep
      rw [at_]
      dsimp only
      rw [turning.pick]
      have valid : c.executed.length % 2 ≠ consoleInvalidBufIdx := by
        change _ ≠ 2
        omega
      dsimp only
      rw [if_pos valid]
      exact { sound with turns := turning.getReady }
  | cmdExec cmdBufIdx => exact sound.executes at_ written outside
  | setLast cmdBufIdx =>
      rw [at_] at turning
      unfold ConsolePriv.taskStep
      rw [at_]
      exact { sound with turns := turning.setLast }
  | giveBack cmdBufIdx =>
      rw [at_] at turning
      unfold ConsolePriv.taskStep
      rw [at_]
      dsimp only
      have notInLoop : ¬ c.InLoop := by
        rintro ⟨_, _, inside⟩
        rw [outside] at inside
        cases inside
      by_cases without : c.rxBufIdx = consoleInvalidBufIdx
      · rw [if_pos without]
        refine { sound with
          turns := turning.giveBack.1 without
          dataCnt := by change 0 < 256; omega
          noBuf := fun _ => rfl
          inLoop := ?_
          text := ?_ }
        · intro rxBuf cnt inside
          exact absurd ⟨rxBuf, cnt, inside⟩ notInLoop
        · rw [line, count_of_not_inLoop]
          · intro data member
            cases member
          · exact notInLoop
      · rw [if_neg without]
        exact { sound with turns := turning.giveBack.2 without }
  | exited =>
      unfold ConsolePriv.taskStep
      rw [at_]
      exact sound

theorem consoleStep (sound : c.Sound) (event : ConsoleEvent) :
    (consoleStep c event).Sound := by
  cases event with
  | arrive data => exact sound.unread c.rxData _ _ c.discarded
  | interrupt =>
      unfold Console.consoleStep
      dsimp only
      by_cases outside : c.rx = none
      · rw [if_pos outside]
        refine sound.elsewhere (some .restart) ?_ ?_ c.rxData c.fifo c.arrived
          c.discarded
        · rintro ⟨_, _, inside⟩
          rw [outside] at inside
          cases inside
        · intro _ _ inside
          cases inside
      · rw [if_neg outside]
        exact sound
  | handler => exact sound.rxMove c.rxMove
  | task written =>
      unfold Console.consoleStep
      dsimp only
      by_cases outside : c.rx = none
      · rw [if_pos outside]
        exact sound.taskStep written outside
      · rw [if_neg outside]
        exact sound
  | waitFails => exact sound
  | started => exact { sound with }

end Sound

end ConsolePriv

theorem sound_run (again : Bool) (memory : Nat → Byte)
    (events : List ConsoleEvent) :
    (run consoleStep (consoleStart again memory) events).Sound :=
  run_invariant ConsolePriv.Sound (fun _ event sound => sound.consoleStep event)
    _ (ConsolePriv.sound_start again memory) events

end XR872.Console
