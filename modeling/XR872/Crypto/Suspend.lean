/-
When the suspend guard guards.

The flag never outlasts the operations. It is missing while the mutex is held
exactly if one task clears it while another holds the mutex, or gets the mutex
after it was cleared.
-/

import XR872.Crypto.Running
import XR872.Library.Run

namespace XR872.Crypto

open RecursiveMutexes
open Runs

variable {τ : Type} [DecidableEq τ]

/-- Between its first write of the flag and its last, a call waits for the
engine or has it. -/
def CeCode.engaged : CeCode → Bool
  | .done => false
  | .opened => true
  | .setRunning _ => false
  | .mutexLock _ _ => true
  | .mutexUnlock _ => true
  | .clearRunning _ => true

def Engaged (state : CeState τ) (task : τ) : Prop :=
  (state.code task).engaged = true ∨ 0 < state.sessions task

/-- The guard: while the mutex is held the flag is set and a suspend is
refused, and while no task is engaged the flag is clear and it succeeds. -/
structure Guarded (state : CeState τ) : Prop where
  held : state.lock ≠ none →
    state.running = true ∧ state.ceSuspend.1 = -1
  idle : (∀ task, ¬ Engaged state task) →
    state.running = false ∧ state.ceSuspend.1 = 0

/-- The flag is not cleared while the mutex is held, and still set when the
mutex is got. -/
def KeepsFlag (state : CeState τ) : CeEvent τ → Prop
  | .proceed task _ =>
      match state.code task with
      | .clearRunning _ => state.lock = none
      | .mutexLock _ _ =>
          state.lock.available task = true → state.running = true
      | _ => True
  | _ => True

/-! ### Books -/

def CeCode.unlocks : CeCode → Nat
  | .done => 0
  | .opened => 1
  | .setRunning next => next.unlocks
  | .mutexLock locked _ => locked.unlocks - 1
  | .mutexUnlock next => next.unlocks + 1
  | .clearRunning next => next.unlocks

def CeCode.Balanced : CeCode → Prop
  | .done => True
  | .opened => True
  | .setRunning next => next.engaged = true ∧ next.unlocks = 0 ∧ next.Balanced
  | .mutexLock locked failed =>
      (locked.engaged = true ∧ 0 < locked.unlocks ∧ locked.Balanced) ∧
        failed.Balanced
  | .mutexUnlock next => next.engaged = true ∧ next.Balanced
  | .clearRunning next => next.Balanced

theorem crcInit1Code_balanced (totalSize : BitVec 32) (locked failed : CeCode)
    (unlocks : locked.unlocks = 1)
    (ok : locked.engaged = true ∧ locked.Balanced)
    (error : failed.Balanced) :
    (crcInit1Code totalSize locked failed).Balanced := by
  unfold crcInit1Code
  split
  · exact error
  · refine ⟨rfl, ?_, ⟨ok.1, ?_, ok.2⟩, error⟩
    · change locked.unlocks - 1 = 0
      rw [unlocks]
    · rw [unlocks]
      decide

theorem crcInit1Code_unlocks (totalSize : BitVec 32) :
    (crcInit1Code totalSize .opened .done).unlocks = 0 := by
  unfold crcInit1Code
  split <;> rfl

theorem code_balanced (call : CeCall) : call.code.Balanced := by
  cases call with
  | operation operation size =>
      change (operationCode operation size).Balanced
      unfold operationCode
      split
      · trivial
      · exact ⟨rfl, rfl, ⟨rfl, by decide, rfl, trivial⟩, trivial⟩
  | finish algorithm => exact ⟨rfl, trivial⟩
  | init algorithm =>
      have hash : hashInitCode.Balanced :=
        ⟨rfl, rfl, ⟨rfl, by decide, trivial⟩, trivial⟩
      cases algorithm with
      | md5 => exact hash
      | sha1 => exact hash
      | sha256 => exact hash
      | crc totalSize =>
          have again : (crcInit1Code totalSize .opened .done).Balanced :=
            crcInit1Code_balanced totalSize _ _ rfl ⟨rfl, trivial⟩ trivial
          have one := crcInit1Code_unlocks totalSize
          refine crcInit1Code_balanced 1 _ _ ?_ ⟨rfl, rfl, again⟩ ⟨rfl, again⟩
          change (crcInit1Code totalSize .opened .done).unlocks + 1 = 1
          rw [one]

structure Books (state : CeState τ) : Prop where
  balanced : ∀ task, (state.code task).Balanced
  returned : ∀ task, state.code task ≠ .opened
  owed : ∀ task, RecursiveMutex.depth task state.lock ≤
    state.sessions task + (state.code task).unlocks
  seen : state.running = true → ∃ task, Engaged state task

theorem unlocks_engaged (code : CeCode) (balanced : code.Balanced)
    (owes : 0 < code.unlocks) : code.engaged = true := by
  cases code with
  | done => cases owes
  | opened => rfl
  | setRunning next =>
      change 0 < next.unlocks at owes
      rw [balanced.2.1] at owes
      cases owes
  | mutexLock locked failed => rfl
  | mutexUnlock next => rfl
  | clearRunning next => rfl

theorem engaged_of_depth (state : CeState τ) (books : Books state) (task : τ)
    (holds : 0 < RecursiveMutex.depth task state.lock) :
    Engaged state task := by
  have owed := books.owed task
  by_cases open_ : 0 < state.sessions task
  · exact .inr open_
  · exact .inl (unlocks_engaged _ (books.balanced task) (by omega))

/-! ### Going on -/

section

variable (state : CeState τ) (task : τ) (next : CeCode)

theorem goTo_running : (state.goTo task next).running = state.running := by
  cases next <;> rfl

theorem goTo_lock : (state.goTo task next).lock = state.lock := by
  cases next <;> rfl

theorem goTo_code_self :
    (state.goTo task next).code task =
      if next = .opened then .done else next := by
  cases next <;> simp [CeState.goTo]

theorem goTo_code_other (other : τ) (apart : other ≠ task) :
    (state.goTo task next).code other = state.code other := by
  cases next <;> simp [CeState.goTo, apart]

theorem goTo_sessions_self :
    (state.goTo task next).sessions task =
      state.sessions task + if next = .opened then 1 else 0 := by
  cases next <;> simp [CeState.goTo]

theorem goTo_sessions_other (other : τ) (apart : other ≠ task) :
    (state.goTo task next).sessions other = state.sessions other := by
  cases next <;> simp [CeState.goTo, apart]

theorem engaged_goTo_self :
    Engaged (state.goTo task next) task ↔
      next.engaged = true ∨ 0 < state.sessions task := by
  unfold Engaged
  rw [goTo_code_self, goTo_sessions_self]
  by_cases opens : next = .opened
  · subst opens
    simp [CeCode.engaged]
  · rw [if_neg opens, if_neg opens, Nat.add_zero]

theorem engaged_goTo_other (other : τ) (apart : other ≠ task) :
    Engaged (state.goTo task next) other ↔ Engaged state other := by
  unfold Engaged
  rw [goTo_code_other state task next other apart,
    goTo_sessions_other state task next other apart]

/-- A task may go on if what it owes stays covered and the flag, if set, stays
seen. -/
theorem books_goTo (balanced : ∀ other, (state.code other).Balanced)
    (returned : ∀ other, state.code other ≠ .opened)
    (others : ∀ other, other ≠ task →
      RecursiveMutex.depth other state.lock ≤
        state.sessions other + (state.code other).unlocks)
    (next_balanced : next.Balanced)
    (owed : RecursiveMutex.depth task state.lock ≤
      state.sessions task + next.unlocks)
    (seen : state.running = true → next.engaged = true ∨
      0 < state.sessions task ∨ ∃ other, other ≠ task ∧ Engaged state other) :
    Books (state.goTo task next) := by
  refine ⟨?_, ?_, ?_, ?_⟩
  · intro other
    by_cases same : other = task
    · rw [same, goTo_code_self]
      split
      · trivial
      · exact next_balanced
    · rw [goTo_code_other state task next other same]
      exact balanced other
  · intro other
    by_cases same : other = task
    · rw [same, goTo_code_self]
      split
      · intro other
        cases other
      · assumption
    · rw [goTo_code_other state task next other same]
      exact returned other
  · intro other
    rw [goTo_lock]
    by_cases same : other = task
    · rw [same, goTo_code_self, goTo_sessions_self]
      by_cases opens : next = .opened
      · subst opens
        exact owed
      · rw [if_neg opens, if_neg opens, Nat.add_zero]
        exact owed
    · rw [goTo_code_other state task next other same,
        goTo_sessions_other state task next other same]
      exact others other same
  · rw [goTo_running]
    intro running
    rcases seen running with mine | session | ⟨other, apart, engaged⟩
    · exact ⟨task, (engaged_goTo_self state task next).mpr (.inl mine)⟩
    · exact ⟨task, (engaged_goTo_self state task next).mpr (.inr session)⟩
    · exact ⟨other,
        (engaged_goTo_other state task next other apart).mpr engaged⟩

end

/-! ### One step -/

/-- The task whose engagement the flag shows is another, or has a session
open. -/
theorem seen_idle (state : CeState τ) (books : Books state) (task : τ)
    (idle : state.code task = .done) (running : state.running = true) :
    0 < state.sessions task ∨ ∃ other, other ≠ task ∧ Engaged state other := by
  obtain ⟨other, engaged⟩ := books.seen running
  by_cases same : other = task
  · subst same
    rcases engaged with mine | session
    · rw [idle] at mine
      cases mine
    · exact .inl session
  · exact .inr ⟨other, same, engaged⟩

theorem books_call (state : CeState τ) (books : Books state) (task : τ)
    (call : CeCall) (idle : state.code task = .done) :
    Books (state.goTo task call.code) := by
  have owed := books.owed task
  rw [idle] at owed
  exact books_goTo state task call.code books.balanced books.returned
    (fun other _ => books.owed other) (code_balanced call)
    (Nat.le_trans owed (Nat.le_add_right _ _))
    fun running => .inr (seen_idle state books task idle running)

theorem books_finish (state : CeState τ) (books : Books state) (task : τ)
    (idle : state.code task = .done) :
    Books (CeState.goTo { state with
      sessions :=
        Function.update state.sessions task (state.sessions task - 1) }
      task (finishCode .done)) := by
  have owed := books.owed task
  rw [idle] at owed
  apply books_goTo
  · exact books.balanced
  · exact books.returned
  · intro other apart
    have same := books.owed other
    simpa [apart] using same
  · exact ⟨rfl, trivial⟩
  · change _ ≤ Function.update state.sessions task _ task + 1
    rw [Function.update_self]
    change _ ≤ state.sessions task + 0 at owed
    change RecursiveMutex.depth task state.lock ≤ _
    omega
  · intro _
    exact .inl rfl

theorem books_enter (state : CeState τ) (books : Books state) (task : τ)
    (call : CeCall) : Books (state.enter task call) := by
  unfold CeState.enter
  split
  · exact books
  · rename_i idle
    have returned := not_not.mp idle
    cases call with
    | operation called size => exact books_call state books task _ returned
    | init algorithm => exact books_call state books task _ returned
    | finish algorithm =>
        dsimp only
        split
        · exact books
        · exact books_finish state books task returned

theorem books_proceed (state : CeState τ) (books : Books state) (task : τ)
    (timesOut : Bool) : Books (state.proceed task timesOut) := by
  have owed := books.owed task
  have balanced := books.balanced task
  unfold CeState.proceed
  cases at_ : state.code task with
  | done => exact books
  | opened => exact books
  | setRunning next =>
      rw [at_] at owed balanced
      exact books_goTo _ task next books.balanced books.returned
        (fun other _ => books.owed other) balanced.2.2 owed
        fun _ => .inl balanced.1
  | mutexUnlock next =>
      rw [at_] at owed balanced
      refine books_goTo _ task next books.balanced books.returned ?_ balanced.2
        ?_ fun _ => .inl balanced.1
      · intro other apart
        change RecursiveMutex.depth other (state.lock.unlock task) ≤ _
        rw [RecursiveMutex.depth_unlock_other _ _ _ apart]
        exact books.owed other
      · change RecursiveMutex.depth task (state.lock.unlock task) ≤ _
        rw [RecursiveMutex.depth_unlock_self]
        change _ ≤ _ + (next.unlocks + 1) at owed
        change _ ≤ state.sessions task + next.unlocks
        omega
  | clearRunning next =>
      rw [at_] at owed balanced
      exact books_goTo _ task next books.balanced books.returned
        (fun other _ => books.owed other) balanced owed
        fun running => by cases running
  | mutexLock locked failed =>
      rw [at_] at owed balanced
      obtain ⟨⟨engaged, unlocks, locked_balanced⟩, failed_balanced⟩ := balanced
      change _ ≤ _ + (locked.unlocks - 1) at owed
      dsimp only
      by_cases ready : state.lock.available task = true
      · rw [if_pos ready]
        refine books_goTo _ task locked books.balanced books.returned ?_
          locked_balanced ?_ fun _ => .inl engaged
        · intro other apart
          change RecursiveMutex.depth other (state.lock.lock task) ≤ _
          rw [RecursiveMutex.depth_lock_other _ _ _ ready apart]
          exact books.owed other
        · change RecursiveMutex.depth task (state.lock.lock task) ≤
            state.sessions task + locked.unlocks
          rw [RecursiveMutex.depth_lock_self _ _ ready]
          omega
      · rw [if_neg ready]
        split
        · -- the time is out while another task holds the mutex
          obtain ⟨none, other, apart, holds⟩ :=
            RecursiveMutex.held_of_not_available state.lock task
              (Bool.eq_false_iff.mpr ready)
          refine books_goTo _ task failed books.balanced books.returned
            (fun other _ => books.owed other) failed_balanced (by omega) ?_
          intro _
          exact .inr (.inr
            ⟨other, apart, engaged_of_depth state books other holds⟩)
        · exact books

theorem books_step (state : CeState τ) (event : CeEvent τ)
    (books : Books state) : Books (state.step event) := by
  cases event with
  | call task call => exact books_enter state books task call
  | proceed task timesOut => exact books_proceed state books task timesOut
  | suspend =>
      change Books state.ceSuspend.2
      unfold CeState.ceSuspend
      split
      · exact books
      · exact ⟨books.balanced, books.returned, books.owed, books.seen⟩
  | resume =>
      unfold CeState.step
      dsimp only
      split
      · exact ⟨books.balanced, books.returned, books.owed, books.seen⟩
      · exact books

theorem books_start : Books (CeState.start : CeState τ) :=
  { balanced := fun _ => trivial
    returned := fun _ done => by cases done
    owed := fun _ => Nat.le_refl 0
    seen := fun running => by cases running }

/-! ### The guard -/

omit [DecidableEq τ] in
theorem ceSuspend_eq (state : CeState τ) :
    state.ceSuspend.1 = if state.running then -1 else 0 := by
  unfold CeState.ceSuspend
  split <;> rfl

/-- The flag never outlasts the tasks that are engaged, so only the other half
of the guard is in question. -/
theorem guarded_iff (state : CeState τ) (books : Books state) :
    Guarded state ↔ (state.lock ≠ none → state.running = true) := by
  constructor
  · intro guarded held
    exact (guarded.held held).1
  · intro kept
    refine ⟨?_, ?_⟩
    · intro held
      have running := kept held
      rw [ceSuspend_eq, running]
      exact ⟨rfl, rfl⟩
    · intro idle
      have quiet : state.running = false := by
        by_contra set
        obtain ⟨task, engaged⟩ := books.seen (Bool.eq_true_of_not_eq_false set)
        exact idle task engaged
      rw [ceSuspend_eq, quiet]
      exact ⟨rfl, rfl⟩

/-- A statement of a guarded state keeps the guard exactly if it keeps the
flag. -/
theorem kept_proceed_iff (state : CeState τ) (task : τ) (timesOut : Bool)
    (kept : state.lock ≠ none → state.running = true) :
    ((state.proceed task timesOut).lock ≠ none →
        (state.proceed task timesOut).running = true) ↔
      KeepsFlag state (.proceed task timesOut) := by
  unfold CeState.proceed KeepsFlag
  dsimp only
  cases state.code task with
  | done => exact iff_of_true kept trivial
  | opened => exact iff_of_true kept trivial
  | setRunning next =>
      dsimp only
      rw [goTo_running]
      exact iff_of_true (fun _ => rfl) trivial
  | mutexUnlock next =>
      dsimp only
      rw [goTo_running, goTo_lock]
      refine iff_of_true ?_ trivial
      intro held
      exact kept (RecursiveMutex.ne_none_of_unlock state.lock task held)
  | clearRunning next =>
      dsimp only
      rw [goTo_running, goTo_lock]
      constructor
      · intro none
        by_contra held
        cases none held
      · intro free held
        exact absurd free held
  | mutexLock locked failed =>
      dsimp only
      by_cases ready : state.lock.available task = true
      · rw [if_pos ready, goTo_running, goTo_lock, imp_iff_right ready]
        exact imp_iff_right (RecursiveMutex.lock_ne_none state.lock task)
      · rw [if_neg ready]
        refine iff_of_true ?_ fun got => absurd got ready
        split
        · rw [goTo_running, goTo_lock]
          exact kept
        · exact kept

theorem kept_enter (state : CeState τ) (task : τ) (call : CeCall) :
    (state.enter task call).running = state.running ∧
      (state.enter task call).lock = state.lock := by
  unfold CeState.enter
  split
  · exact ⟨rfl, rfl⟩
  · cases call with
    | operation called size =>
        exact ⟨goTo_running state task _, goTo_lock state task _⟩
    | init algorithm =>
        exact ⟨goTo_running state task _, goTo_lock state task _⟩
    | finish algorithm =>
        dsimp only
        split
        · exact ⟨rfl, rfl⟩
        · exact ⟨goTo_running _ task _, goTo_lock _ task _⟩

theorem kept_step_iff (state : CeState τ) (event : CeEvent τ)
    (kept : state.lock ≠ none → state.running = true) :
    ((state.step event).lock ≠ none → (state.step event).running = true) ↔
      KeepsFlag state event := by
  cases event with
  | call task call =>
      obtain ⟨running, lock⟩ := kept_enter state task call
      change ((state.enter task call).lock ≠ none →
        (state.enter task call).running = true) ↔ _
      rw [running, lock]
      exact iff_of_true kept trivial
  | proceed task timesOut => exact kept_proceed_iff state task timesOut kept
  | suspend =>
      refine iff_of_true ?_ trivial
      change state.ceSuspend.2.lock ≠ none → state.ceSuspend.2.running = true
      unfold CeState.ceSuspend
      split
      · exact kept
      · exact kept
  | resume =>
      refine iff_of_true ?_ trivial
      unfold CeState.step
      dsimp only
      split
      · exact kept
      · exact kept

/-- The engine is guarded throughout a run exactly if no step of it clears the
flag while the mutex is held, and none gets the mutex with the flag clear. -/
theorem guarded_along (events : List (CeEvent τ)) :
    Always CeState.step Guarded (CeState.start : CeState τ) events ↔
      Along CeState.step KeepsFlag (CeState.start : CeState τ) events := by
  have start : Guarded (CeState.start : CeState τ) :=
    (guarded_iff _ books_start).mpr fun held => absurd rfl held
  apply always_iff_along Guarded KeepsFlag Books
  · intro state event books _ _
    exact books_step state event books
  · intro state event books guarded
    rw [guarded_iff _ (books_step state event books)]
    exact kept_step_iff state event ((guarded_iff state books).mp guarded)
  · exact books_start
  · exact start

/-- One task holds the engine; another's time for the mutex runs out, and it
clears the flag. -/
def timedOutRun : List (CeEvent Bool) :=
  [.call true (.operation .prngGenerate 1), .proceed true false,
    .proceed true false, .call false (.operation .prngGenerate 1),
    .proceed false false, .proceed false true, .proceed false false]

theorem timedOut_unguarded :
    ¬ Always CeState.step Guarded (CeState.start : CeState Bool)
      timedOutRun := by
  intro always
  have last := always timedOutRun List.prefix_rfl
  have running := (last.held (by decide)).1
  revert running
  decide

end XR872.Crypto
