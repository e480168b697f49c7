/-
The console serves every command line that it accepts, once and in order, unless
its task looks too early.

The handler comes to its end, and then the task, left alone, executes what is
ready. A task that finds the console not started yet is gone, and the line that
has woken it stays.
-/

import XR872.Console.Ownership

namespace XR872.Console

open BitView
open Runs
open Memories

namespace ConsolePriv

/-! ### One role at a time -/

def roleOf (accepted picked givenBack bufIdx : Nat) : Role :=
  if accepted < givenBack + 2 ∧ bufIdx = accepted % 2 then .filling
  else if accepted = givenBack then .free
  else if picked = givenBack + 1 ∧ bufIdx = givenBack % 2 then .executing
  else .ready

def roleAt (c : ConsolePriv) (bufIdx : Nat) : Role :=
  roleOf c.accepted.length (c.task.picked c.executed.length)
    (c.task.givenBack c.executed.length) bufIdx

/-- A place in a buffer that is being filled, and neither ready nor being
executed. -/
def Fills (c : ConsolePriv) (place : Nat) : Prop :=
  ∃ bufIdx < 2, consoleBuf bufIdx ≤ place ∧
    place < consoleBuf bufIdx + consoleCmdLineMaxLen ∧
    c.Has bufIdx .filling ∧ ¬ c.Has bufIdx .ready ∧ ¬ c.Has bufIdx .executing

namespace Sound

variable {c : ConsolePriv}

theorem filling_iff (sound : c.Sound) (bufIdx : Nat) (inside : bufIdx < 2) :
    c.Has bufIdx .filling ↔
      c.accepted.length < c.task.givenBack c.executed.length + 2 ∧
        bufIdx = c.accepted.length % 2 := by
  have isRx := sound.turns.rxBufIdx
  change c.rxBufIdx = bufIdx ↔ _
  split at isRx <;> omega

theorem ready_iff (sound : c.Sound) (bufIdx : Nat) :
    c.Has bufIdx .ready ↔
      (c.task.picked c.executed.length < c.accepted.length ∧
        bufIdx = c.task.picked c.executed.length % 2) ∨
      (c.task.picked c.executed.length + 1 < c.accepted.length ∧
        bufIdx = (c.task.picked c.executed.length + 1) % 2) := by
  have bound := sound.turns.accepted_le
  have either := sound.turns.picked_or
  refine (sound.turns.isReady bufIdx).trans ?_
  constructor
  · rintro ⟨turn, from_, before, place⟩
    omega
  · rintro (⟨before, place⟩ | ⟨before, place⟩)
    · exact ⟨_, Nat.le_refl _, before, place⟩
    · exact ⟨_, Nat.le_succ _, before, place⟩

theorem executing_iff (sound : c.Sound) (bufIdx : Nat) :
    c.Has bufIdx .executing ↔
      c.task.picked c.executed.length =
          c.task.givenBack c.executed.length + 1 ∧
        bufIdx = c.task.givenBack c.executed.length % 2 := by
  have either := sound.turns.picked_or
  constructor
  · intro same
    have inHand : c.task.inHand = some bufIdx := same
    rcases either with ⟨none, _⟩ | ⟨_, behind⟩
    · rw [inHand] at none
      cases none
    · exact ⟨behind, sound.turns.hand bufIdx inHand⟩
  · rintro ⟨behind, place⟩
    rcases either with ⟨_, same⟩ | ⟨isSome, _⟩
    · omega
    · obtain ⟨idx, inHand⟩ := Option.isSome_iff_exists.mp isSome
      change c.task.inHand = some bufIdx
      rw [inHand, sound.turns.hand idx inHand, place]

theorem has_iff (sound : c.Sound) (bufIdx : Nat) (inside : bufIdx < 2)
    (role : Role) : c.Has bufIdx role ↔ c.roleAt bufIdx = role := by
  have picked := sound.turns.picked_le
  have bound := sound.turns.accepted_le
  have either := sound.turns.picked_or
  unfold roleAt roleOf
  cases role with
  | filling =>
      rw [sound.filling_iff bufIdx inside]
      split_ifs <;> simp <;> omega
  | ready =>
      rw [sound.ready_iff]
      split_ifs <;> simp <;> omega
  | executing =>
      rw [sound.executing_iff]
      split_ifs <;> simp <;> omega
  | free =>
      refine (sound.turns.isFree bufIdx).trans ?_
      split_ifs <;> simp <;> omega

theorem one_role (sound : c.Sound) (bufIdx : Nat) (inside : bufIdx < 2) :
    ∃! role, c.Has bufIdx role := by
  refine ⟨c.roleAt bufIdx, (sound.has_iff bufIdx inside _).mpr rfl, ?_⟩
  intro role has
  exact ((sound.has_iff bufIdx inside role).mp has).symm

/-! ### Where the interrupt writes -/

theorem fills (sound : c.Sound) {rxBuf cnt : Nat}
    (at_ : c.rx = some (.loop rxBuf cnt)) (short : cnt < 256) :
    c.Fills rxBuf := by
  obtain ⟨inside, isBuf, _⟩ := sound.inLoop rxBuf cnt at_
  have role : c.roleAt c.rxBufIdx = .filling :=
    (sound.has_iff _ inside .filling).mp rfl
  refine ⟨c.rxBufIdx, inside, by omega, ?_, rfl, ?_, ?_⟩
  · change rxBuf < _ + 256
    omega
  · rw [sound.has_iff _ inside, role]
    intro same
    cases same
  · rw [sound.has_iff _ inside, role]
    intro same
    cases same

theorem stores (sound : c.Sound) (event : ConsoleEvent) :
    (Console.consoleStep c event).stored = c.stored ∨
      ∃ place, (Console.consoleStep c event).stored = place :: c.stored ∧
        c.Fills place := by
  cases event with
  | arrive data => exact .inl rfl
  | interrupt =>
      unfold Console.consoleStep
      dsimp only
      split <;> exact .inl rfl
  | handler =>
      change c.rxStep.stored = _ ∨ ∃ place, c.rxStep.stored = _ ∧ _
      have move := c.rxMove
      generalize c.rxStep = next at move ⊢
      cases move with
      | char at_ short => exact .inr ⟨_, rfl, sound.fills at_ short⟩
      | endLf at_ short => exact .inr ⟨_, rfl, sound.fills at_ short⟩
      | endCr at_ short => exact .inr ⟨_, rfl, sound.fills at_ short⟩
      | endCrLf at_ short => exact .inr ⟨_, rfl, sound.fills at_ short⟩
      | endCrOther at_ short => exact .inr ⟨_, rfl, sound.fills at_ short⟩
      | _ => exact .inl rfl
  | task written =>
      left
      unfold Console.consoleStep ConsolePriv.taskStep
      dsimp only
      split
      · split <;> first | rfl | (split <;> rfl)
      · rfl
  | waitFails => exact .inl rfl
  | started => exact .inl rfl

end Sound

/-- Bytes that wait to be read. -/
def unread (c : ConsolePriv) : Nat :=
  c.fifo.length + if c.rxData.isSome then 1 else 0

def rxWork : Option RxCode → Nat
  | none => 0
  | some .restart => 3
  | some (.loop _ cnt) => if cnt < 256 then 1 else 2
  | some .discard => 1

def handlerWork (c : ConsolePriv) : Nat := 3 * c.unread + rxWork c.rx

theorem nextRx_unread (c : ConsolePriv) {data : Byte} {rxData : Option Byte}
    {fifo : List Byte} (next : c.nextRx = some (data, rxData, fifo)) :
    rxData = none ∧ c.unread = fifo.length + 1 := by
  unfold nextRx at next
  unfold unread
  split at next
  · next saved _ isSome =>
      cases next
      rw [isSome]
      exact ⟨rfl, rfl⟩
  · next saved rest isNone isCons =>
      cases next
      rw [isNone, isCons]
      exact ⟨rfl, rfl⟩
  · cases next

theorem RxMove.less {c next : ConsolePriv} (move : RxMove c next)
    (sound : c.Sound) (runs : c.rx ≠ none) :
    next.handlerWork < c.handlerWork := by
  unfold handlerWork
  cases move with
  | idle outside => exact absurd outside runs
  | begin_ at_ filling =>
      have short : c.rxDataCnt < 256 := sound.dataCnt
      rw [at_]
      change 3 * c.unread + (if c.rxDataCnt < 256 then 1 else 2) <
        3 * c.unread + 3
      rw [if_pos short]
      omega
  | noBuf at_ without =>
      rw [at_]
      change 3 * c.unread + 1 < 3 * c.unread + 3
      omega
  | @tooLong rxBuf cnt at_ full =>
      rw [at_]
      change 3 * c.unread + 1 <
        3 * c.unread + (if cnt < 256 then 1 else 2)
      rw [if_neg full]
      omega
  | @noMore rxBuf cnt at_ short empty =>
      rw [at_]
      change 3 * c.unread + 0 <
        3 * c.unread + (if cnt < 256 then 1 else 2)
      rw [if_pos short]
      omega
  | @char rxBuf cnt at_ short data rxData fifo next notLf notCr valid =>
      obtain ⟨rfl, unread⟩ := c.nextRx_unread next
      rw [at_, unread]
      change 3 * (fifo.length + 0) + (if cnt + 1 < 256 then 1 else 2) <
        3 * (fifo.length + 1) + (if cnt < 256 then 1 else 2)
      rw [if_pos short]
      split <;> omega
  | @illegal rxBuf cnt at_ short data rxData fifo next notLf notCr invalid =>
      obtain ⟨rfl, unread⟩ := c.nextRx_unread next
      rw [at_, unread]
      change 3 * (fifo.length + 0) + 1 <
        3 * (fifo.length + 1) + (if cnt < 256 then 1 else 2)
      rw [if_pos short]
      omega
  | @endLf rxBuf cnt at_ short rxData fifo next =>
      obtain ⟨rfl, unread⟩ := c.nextRx_unread next
      rw [unread]
      change 3 * (fifo.length + 0) + 0 < _
      omega
  | endCr at_ short next =>
      obtain ⟨rfl, unread⟩ := c.nextRx_unread next
      rw [unread]
      change 3 * (0 + 0) + 0 < 3 * (0 + 1) + _
      omega
  | @endCrLf rxBuf cnt at_ short rxData rest next =>
      obtain ⟨rfl, unread⟩ := c.nextRx_unread next
      rw [unread]
      change 3 * (rest.length + 0) + 0 < 3 * (rest.length + 1 + 1) + _
      omega
  | @endCrOther rxBuf cnt at_ short rxData other rest next notLf =>
      obtain ⟨rfl, unread⟩ := c.nextRx_unread next
      rw [at_, unread]
      change 3 * (rest.length + 1) + 3 <
        3 * (rest.length + 1 + 1) + (if cnt < 256 then 1 else 2)
      rw [if_pos short]
      omega
  | discarded at_ empty =>
      rw [at_]
      change 3 * c.unread + 0 < 3 * c.unread + 1
      omega
  | @discards at_ data rxData fifo next =>
      obtain ⟨rfl, unread⟩ := c.nextRx_unread next
      rw [unread]
      change 3 * (fifo.length + 0) + rxWork c.rx <
        3 * (fifo.length + 1) + rxWork c.rx
      omega

theorem RxMove.task {c next : ConsolePriv} (move : RxMove c next) :
    next.task = c.task := by
  cases move <;> rfl

theorem accepted_prefix (c : ConsolePriv) (event : ConsoleEvent) :
    c.accepted <+: (Console.consoleStep c event).accepted := by
  cases event with
  | arrive data => exact List.prefix_rfl
  | interrupt =>
      unfold Console.consoleStep
      dsimp only
      split <;> exact List.prefix_rfl
  | handler =>
      change _ <+: c.rxStep.accepted
      have move := c.rxMove
      generalize c.rxStep = next at move ⊢
      cases move with
      | endLf => exact List.prefix_append ..
      | endCr => exact List.prefix_append ..
      | endCrLf => exact List.prefix_append ..
      | endCrOther => exact List.prefix_append ..
      | _ => exact List.prefix_rfl
  | task written =>
      unfold Console.consoleStep taskStep
      dsimp only
      split
      · split <;> first | exact List.prefix_rfl | (split <;> exact List.prefix_rfl)
      · exact List.prefix_rfl
  | waitFails => exact List.prefix_rfl
  | started => exact List.prefix_rfl

theorem accepted_prefix_run (c : ConsolePriv) (events : List ConsoleEvent) :
    c.accepted <+: (run Console.consoleStep c events).accepted :=
  run_invariant (fun state => c.accepted <+: state.accepted)
    (fun state event before => before.trans (state.accepted_prefix event)) c
    List.prefix_rfl events

namespace Sound

variable {c : ConsolePriv}

theorem handler_ends (sound : c.Sound) :
    ∃ turns, (run Console.consoleStep c
        (List.replicate turns .handler)).rx = none ∧
      (run Console.consoleStep c
        (List.replicate turns .handler)).task = c.task := by
  induction work : c.handlerWork using Nat.strong_induction_on generalizing c with
  | h work ih =>
      by_cases outside : c.rx = none
      · exact ⟨0, outside, rfl⟩
      · obtain ⟨turns, ends, same⟩ := ih _
          (by rw [← work]; exact c.rxMove.less sound outside)
          (sound.consoleStep .handler) rfl
        exact ⟨turns + 1, ends, same.trans c.rxMove.task⟩

/-! ### The task executes what is ready -/

theorem executed_eq (sound : c.Sound)
    (all : c.executed.length = c.accepted.length) :
    c.executed = c.accepted := by
  have done := sound.done
  rw [all, List.take_length] at done
  exact done

theorem executed_le (sound : c.Sound) :
    c.executed.length ≤ c.accepted.length := by
  rw [sound.done]
  exact List.length_take_le' ..

end Sound

theorem taskStep_state (c : ConsolePriv) (written : Nat → Byte) :
    (c.taskStep written).state = c.state := by
  unfold taskStep
  split <;> first | rfl | (split <;> rfl)

theorem taskStep_exited_iff (c : ConsolePriv) (written : Nat → Byte)
    (live : c.task ≠ .exited) :
    (c.taskStep written).task = .exited ↔
      c.task = .stateCheck ∧ c.state ≠ .start := by
  unfold taskStep
  cases at_ : c.task with
  | exited => exact absurd at_ live
  | stateCheck =>
      dsimp only
      by_cases started : c.state = .start
      · rw [if_pos started]
        exact iff_of_false (by simp) fun early => early.2 started
      · rw [if_neg started]
        exact iff_of_true rfl ⟨rfl, started⟩
  | semaphoreWait =>
      dsimp only
      split
      · exact iff_of_false (by rw [at_]; simp) (by simp)
      · exact iff_of_false (by simp) (by simp)
  | getReady =>
      dsimp only
      split <;> exact iff_of_false (by simp) (by simp)
  | cmdExec cmdBufIdx => exact iff_of_false (by simp) (by simp)
  | setLast cmdBufIdx => exact iff_of_false (by simp) (by simp)
  | giveBack cmdBufIdx =>
      dsimp only
      split <;> exact iff_of_false (by simp) (by simp)

def turnWork : TaskCode → Nat
  | .setLast _ => 5
  | .giveBack _ => 4
  | .semaphoreWait => 3
  | .stateCheck => 2
  | .getReady => 1
  | .cmdExec _ => 0
  | .exited => 0

def taskWork (c : ConsolePriv) : Nat :=
  6 * (c.accepted.length - c.executed.length) + turnWork c.task

namespace Sound

variable {c : ConsolePriv}

theorem taskStep_less (sound : c.Sound) (started : c.state = .start)
    (live : c.task ≠ .exited) (written : Nat → Byte)
    (waiting : c.executed.length < c.accepted.length) :
    (c.taskStep written).taskWork < c.taskWork ∧
      (c.taskStep written).rx = c.rx := by
  have turning := sound.turns
  unfold Turns at turning
  unfold taskWork
  cases at_ : c.task with
  | semaphoreWait =>
      rw [at_] at turning
      have permits : c.cmdSem + 0 = c.accepted.length - c.executed.length :=
        turning.permits
      have step : c.taskStep written =
          { c with cmdSem := c.cmdSem - 1, task := .stateCheck } := by
        unfold ConsolePriv.taskStep
        rw [at_]
        exact if_neg (by omega)
      rw [step]
      exact ⟨Nat.add_lt_add_left (Nat.lt_succ_self _) _, rfl⟩
  | stateCheck =>
      have step : c.taskStep written = { c with task := .getReady } := by
        unfold ConsolePriv.taskStep
        rw [at_]
        dsimp only
        rw [if_pos started]
      rw [step]
      exact ⟨Nat.add_lt_add_left (Nat.lt_succ_self _) _, rfl⟩
  | getReady =>
      rw [at_] at turning
      have valid : c.executed.length % 2 ≠ consoleInvalidBufIdx := by
        change _ ≠ 2
        omega
      have step : (c.taskStep written).task =
            .cmdExec (c.executed.length % 2) ∧
          (c.taskStep written).executed = c.executed ∧
          (c.taskStep written).accepted = c.accepted ∧
          (c.taskStep written).rx = c.rx := by
        unfold ConsolePriv.taskStep
        rw [at_]
        dsimp only
        rw [turning.pick]
        exact ⟨if_pos valid, rfl, rfl, rfl⟩
      obtain ⟨task, executed, accepted, rx⟩ := step
      rw [task, executed, accepted]
      exact ⟨Nat.add_lt_add_left (Nat.lt_succ_self _) _, rx⟩
  | cmdExec cmdBufIdx =>
      have step : (c.taskStep written).task = .setLast cmdBufIdx ∧
          (c.taskStep written).executed.length = c.executed.length + 1 ∧
          (c.taskStep written).accepted = c.accepted ∧
          (c.taskStep written).rx = c.rx := by
        unfold ConsolePriv.taskStep
        rw [at_]
        exact ⟨rfl, List.length_append, rfl, rfl⟩
      obtain ⟨task, executed, accepted, rx⟩ := step
      rw [task, executed, accepted]
      refine ⟨?_, rx⟩
      change _ + 5 < _ + 0
      omega
  | setLast cmdBufIdx =>
      have step : c.taskStep written =
          { c with
            lastCmdBufIdx := cmdBufIdx, task := .giveBack cmdBufIdx } := by
        unfold ConsolePriv.taskStep
        rw [at_]
      rw [step]
      exact ⟨Nat.add_lt_add_left (Nat.lt_succ_self _) _, rfl⟩
  | giveBack cmdBufIdx =>
      have step : (c.taskStep written).task = .semaphoreWait ∧
          (c.taskStep written).executed = c.executed ∧
          (c.taskStep written).accepted = c.accepted ∧
          (c.taskStep written).rx = c.rx := by
        unfold ConsolePriv.taskStep
        rw [at_]
        dsimp only
        split <;> exact ⟨rfl, rfl, rfl, rfl⟩
      obtain ⟨task, executed, accepted, rx⟩ := step
      rw [task, executed, accepted]
      exact ⟨Nat.add_lt_add_left (Nat.lt_succ_self _) _, rx⟩
  | exited => exact absurd at_ live

theorem task_catches_up (sound : c.Sound) (started : c.state = .start)
    (live : c.task ≠ .exited) (written : Nat → Byte) (outside : c.rx = none) :
    ∃ turns, (run Console.consoleStep c
        (List.replicate turns (.task written))).executed =
      (run Console.consoleStep c
        (List.replicate turns (.task written))).accepted := by
  induction work : c.taskWork using Nat.strong_induction_on generalizing c with
  | h work ih =>
      by_cases all : c.executed.length = c.accepted.length
      · exact ⟨0, sound.executed_eq all⟩
      · have waiting : c.executed.length < c.accepted.length :=
          Nat.lt_of_le_of_ne sound.executed_le all
        have step : Console.consoleStep c (.task written) =
            c.taskStep written := if_pos outside
        obtain ⟨less, same⟩ :=
          sound.taskStep_less started live written waiting
        obtain ⟨turns, caught⟩ := ih _ (by rw [← work]; exact less)
          (sound.taskStep written outside)
          ((c.taskStep_state written).trans started)
          ((c.taskStep_exited_iff written live).not.mpr
            fun early => early.2 started)
          (same.trans outside) rfl
        refine ⟨turns + 1, ?_⟩
        rw [List.replicate_succ, run_cons, step]
        exact caught

/-- From every state with the task there, all that is accepted comes to be
executed, when the handler, `console_start` and the task go on. -/
theorem serves (sound : c.Sound) (live : c.task ≠ .exited) :
    ∃ later, (∀ event ∈ later, event = .handler ∨ event = .started ∨
        ∃ written, event = .task written) ∧
      c.accepted <+: (run Console.consoleStep c later).accepted ∧
      (run Console.consoleStep c later).executed =
        (run Console.consoleStep c later).accepted := by
  obtain ⟨handlerTurns, ends, same⟩ := sound.handler_ends
  have between : (run Console.consoleStep c
      (List.replicate handlerTurns .handler)).Sound :=
    run_invariant Sound (fun _ event sound => sound.consoleStep event) c sound _
  obtain ⟨taskTurns, caught⟩ := (between.consoleStep .started).task_catches_up
    rfl (same.symm ▸ live) (fun _ => 0) ends
  refine ⟨List.replicate handlerTurns .handler ++
    .started :: List.replicate taskTurns (.task fun _ => 0), ?_, ?_, ?_⟩
  · intro event member
    rcases List.mem_append.mp member with handler | behind
    · exact .inl (List.eq_of_mem_replicate handler)
    · rcases List.mem_cons.mp behind with started | task
      · exact .inr (.inl started)
      · exact .inr (.inr ⟨_, List.eq_of_mem_replicate task⟩)
  · exact c.accepted_prefix_run _
  · rw [run_append]
    exact caught

/-- When the task waits and has no permit to go on, nothing is left. -/
theorem nothing_left (sound : c.Sound) (waits : c.task = .semaphoreWait)
    (noPermit : c.cmdSem = 0) : c.executed = c.accepted := by
  have turning := sound.turns
  unfold Turns at turning
  rw [waits] at turning
  have permits : c.cmdSem + 0 = c.accepted.length - c.executed.length :=
    turning.permits
  have fewer := sound.executed_le
  exact sound.executed_eq (by omega)

/-- The line whose permit the task has left with is never executed. -/
theorem exited_behind (sound : c.Sound) (exited : c.task = .exited)
    (events : List ConsoleEvent) :
    (run Console.consoleStep c events).executed ≠
      (run Console.consoleStep c events).accepted := by
  have turning := sound.turns
  unfold Turns at turning
  rw [exited] at turning
  have permits : c.cmdSem + 1 = c.accepted.length - c.executed.length :=
    turning.permits
  have stays : (run Console.consoleStep c events).task = .exited ∧
      (run Console.consoleStep c events).executed = c.executed := by
    refine run_invariant
      (fun state => state.task = .exited ∧ state.executed = c.executed)
      (fun state event before => ?_) c ⟨exited, rfl⟩ events
    obtain ⟨gone, executed⟩ := before
    cases event with
    | handler =>
        change state.rxStep.task = _ ∧ state.rxStep.executed = _
        have move := state.rxMove
        generalize state.rxStep = next at move ⊢
        cases move <;> exact ⟨gone, executed⟩
    | interrupt =>
        unfold Console.consoleStep
        dsimp only
        split <;> exact ⟨gone, executed⟩
    | task written =>
        unfold Console.consoleStep ConsolePriv.taskStep
        dsimp only
        rw [gone]
        split <;> exact ⟨gone, executed⟩
    | _ => exact ⟨gone, executed⟩
  intro same
  have longer := (c.accepted_prefix_run events).length_le
  rw [← same, stays.2] at longer
  omega

end Sound

/-! ### Runs -/

/-- Each buffer has one role; what the interrupt writes next goes to a buffer
that is being filled; and the lines executed are the first ones of those
accepted, all of them once the task waits without a permit, and it comes to
that all are. -/
structure Owned (c : ConsolePriv) : Prop where
  oneRole : ∀ bufIdx < 2, ∃! role, c.Has bufIdx role
  writes : ∀ event, (Console.consoleStep c event).stored = c.stored ∨
    ∃ place, (Console.consoleStep c event).stored = place :: c.stored ∧
      c.Fills place
  inOrder : c.executed <+: c.accepted
  nothingLeft : c.task = .semaphoreWait → c.cmdSem = 0 →
    c.executed = c.accepted
  served : ∃ later, (∀ event ∈ later, event = .handler ∨ event = .started ∨
      ∃ written, event = .task written) ∧
    c.accepted <+: (run Console.consoleStep c later).accepted ∧
    (run Console.consoleStep c later).executed =
      (run Console.consoleStep c later).accepted

/-- The task does not check the state before the last statement of
`console_start`. -/
def ChecksStarted (c : ConsolePriv) (event : ConsoleEvent) : Prop :=
  (∃ written, event = .task written) → c.rx = none → c.task = .stateCheck →
    c.state = .start

theorem Sound.owned_iff {c : ConsolePriv} (sound : c.Sound) :
    c.Owned ↔ c.task ≠ .exited := by
  constructor
  · intro owned exited
    obtain ⟨later, -, -, all⟩ := owned.served
    exact sound.exited_behind exited later all
  · intro live
    exact
      { oneRole := fun bufIdx => sound.one_role bufIdx
        writes := sound.stores
        inOrder := by
          rw [sound.done]
          exact List.take_prefix ..
        nothingLeft := sound.nothing_left
        served := sound.serves live }

theorem live_step_iff (c : ConsolePriv) (live : c.task ≠ .exited)
    (event : ConsoleEvent) :
    (Console.consoleStep c event).task ≠ .exited ↔ c.ChecksStarted event := by
  have other (none : ∀ written, event ≠ .task written) :
      c.ChecksStarted event := fun ⟨written, same⟩ => absurd same (none written)
  cases event with
  | task written =>
      unfold Console.consoleStep
      dsimp only
      by_cases outside : c.rx = none
      · rw [if_pos outside, ne_eq, c.taskStep_exited_iff written live]
        constructor
        · intro notEarly _ _ at_
          by_contra early
          exact notEarly ⟨at_, early⟩
        · intro checks early
          exact early.2 (checks ⟨written, rfl⟩ outside early.1)
      · rw [if_neg outside]
        exact iff_of_true live fun _ none => absurd none outside
  | handler =>
      refine iff_of_true ?_ (other (by simp))
      change c.rxStep.task ≠ _
      rw [c.rxMove.task]
      exact live
  | interrupt =>
      refine iff_of_true ?_ (other (by simp))
      unfold Console.consoleStep
      dsimp only
      split <;> exact live
  | _ => exact iff_of_true live (other (by simp))

end ConsolePriv

open ConsolePriv in
/-- The buffers are owned and the lines served throughout a run exactly if the
task never checks the state of the console before that is started. -/
theorem buffers_owned_iff (again : Bool) (memory : Nat → Byte)
    (events : List ConsoleEvent) :
    Always consoleStep Owned (consoleStart again memory) events ↔
      Along consoleStep ChecksStarted (consoleStart again memory) events := by
  have start := sound_start again memory
  apply always_iff_along Owned _ Sound
  · exact fun c event sound _ _ => sound.consoleStep event
  · intro c event sound owned
    rw [(sound.consoleStep event).owned_iff]
    exact c.live_step_iff (sound.owned_iff.mp owned) event
  · exact start
  · exact start.owned_iff.mpr (by simp [consoleStart])

open ConsolePriv in
/-- The task checks the state for an accepted line only, so it is enough that no
line is accepted before the console is started. -/
theorem checksStarted_of_accepts (again : Bool) (memory : Nat → Byte)
    (events : List ConsoleEvent)
    (accepts : Along consoleStep
      (fun c _ => c.accepted ≠ [] → c.state = .start)
      (consoleStart again memory) events) :
    Along consoleStep ChecksStarted (consoleStart again memory) events := by
  refine along_of_along _ _ Sound ?_ ?_ _ (sound_start again memory) events
    accepts
  · exact fun c event sound _ => sound.consoleStep event
  · intro c event sound accepts _ _ at_
    apply accepts
    intro none
    have turning := sound.turns
    unfold Turns at turning
    rw [at_, none] at turning
    have permits : c.cmdSem + 1 = 0 - c.executed.length := turning.permits
    omega

/-- An `\r` waits when the interrupt is enabled: the line is accepted and the
task goes to look before the console is started. -/
theorem early_line_lost :
    ¬ (run consoleStep (consoleStart true fun _ => 0)
        [.arrive cr, .interrupt, .handler, .handler, .task fun _ => 0,
          .task fun _ => 0, .started]).Owned := by
  intro owned
  refine (ConsolePriv.Sound.owned_iff (sound_run true (fun _ => 0) _)).mp owned ?_
  decide +kernel

end XR872.Console
