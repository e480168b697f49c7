/-
The waits of the assistant's connect, in orderly runs.

At most one call has CONNECTING set, and while it has, a stop requested since
the call is still to be read in the byte. A stop that is about to reset the byte
finds no call that waits.
-/

import XR872.SmartLink.ConnectAp

namespace XR872.SmartLink

open Runs
open MachineInts

variable {ι : Type} [DecidableEq ι]

/-! ### Ticks -/

theorem osTimeBeforeEqual_iff (entered ticks now : Nat) :
    osTimeBeforeEqual (osGetTicks now)
        (osGetTicks entered + BitVec.ofNat 32 ticks) = true ↔
      ((entered : Int) + ticks - now) % 4294967296 < 2147483648 := by
  have difference : osGetTicks entered + BitVec.ofNat 32 ticks - osGetTicks now =
      BitVec.ofInt 32 ((entered : Int) + ticks - now) := by
    unfold osGetTicks
    rw [Int.sub_eq_add_neg, BitVec.ofInt_add, BitVec.ofInt_add, BitVec.ofInt_neg,
      BitVec.ofInt_natCast, BitVec.ofInt_natCast, BitVec.ofInt_natCast,
      BitVec.sub_eq_add_neg]
  unfold osTimeBeforeEqual
  rw [decide_eq_true_iff, difference, toInt_ofInt_32]
  omega

/-- Until 2^31 ticks after the deadline, the comparison tells whether it is
awaited. -/
theorem inTime_iff_awaited {call : ConnectCall} {hz now : Nat}
    (timeout : call.timeout = osGetTicks call.entered +
      BitVec.ofNat 32 (osTicksToMSecs hz call.timeoutMs.toNat))
    (entered : call.entered ≤ now) (bounded : now ≤ call.deadline hz + 2 ^ 31) :
    call.inTime now = true ↔ Awaited (call.deadline hz) now := by
  have short : osTicksToMSecs hz call.timeoutMs.toNat < 2 ^ 32 :=
    Nat.lt_of_le_of_lt (Nat.div_le_self _ _) call.timeoutMs.isLt
  unfold ConnectCall.inTime
  rw [timeout, osTimeBeforeEqual_iff]
  unfold Awaited
  unfold ConnectCall.deadline at bounded ⊢
  omega

theorem osTicksToMSecs_le (hz t : Nat) :
    osTicksToMSecs hz t * 1000 ≤ t * hz := by
  unfold osTicksToMSecs
  by_cases fast : 1000 ≤ hz
  · calc t / (1000 / osTick hz) * 1000 ≤ t * 1000 :=
          Nat.mul_le_mul_right _ (Nat.div_le_self _ _)
      _ ≤ t * hz := Nat.mul_le_mul_left _ fast
  · have zero : 1000 / osTick hz = 0 := by
      unfold osTick
      by_cases still : hz = 0
      · subst still
        decide
      · apply Nat.div_eq_of_lt
        rw [Nat.lt_div_iff_mul_lt (Nat.pos_of_ne_zero still)]
        omega
    rw [zero, Nat.div_zero]
    omega

/-! ### What orderly runs keep -/

structure ConnectKept (hz : Nat) (state : Assistant ι) (call : ConnectCall) :
    Prop where
  number : call.number < state.number
  entered : call.entered ≤ state.now
  timeout : call.timeout = osGetTicks call.entered +
    BitVec.ofNat 32 (osTicksToMSecs hz call.timeoutMs.toNat)
  preparing : call.pc = .preparing → call.requests = state.requests
  connecting : call.pc.registered = true → state.stopConnectAp.connecting = true
  /-- A stop that was requested since the call can still be read. -/
  told : call.pc.registered = true → call.pc.waits = true →
    call.requests ≠ state.requests → state.stopConnectAp.stopConnecting = true
  testLink : ∀ begun requests, call.pc = .testLink begun requests →
    begun ≤ state.now ∧ requests = call.requests
  testTicks : ∀ begun requests, call.pc = .testTicks begun requests →
    begun ≤ state.now ∧ requests = call.requests

structure AssistantKept (hz : Nat) (state : Assistant ι) : Prop where
  calls : ∀ thread call, state.threads thread = .connect call →
    ConnectKept hz state call
  stops : ∀ thread call, state.threads thread = .stop call →
    call.number ≤ state.number
  one : ∀ left right leftCall rightCall,
    state.threads left = .connect leftCall →
    state.threads right = .connect rightCall →
    leftCall.pc.registered = true → rightCall.pc.registered = true → left = right
  /-- Calls that are still preparing came behind every stop. -/
  behind : ∀ thread other call stop, state.threads thread = .connect call →
    state.threads other = .stop stop → call.pc = .preparing →
    stop.number ≤ call.number
  /-- Nothing waits for a stop that is about to reset the byte. -/
  resetting : ∀ thread other call stop, state.threads thread = .connect call →
    state.threads other = .stop stop → stop.pc = .resetting →
    call.pc.registered = false

theorem put_threads (state : Assistant ι) (thread other : ι)
    (next : AssistantThread) :
    (state.put thread next).threads other =
      if other = thread then next else state.threads other := by
  unfold Assistant.put
  exact Function.update_apply _ _ _ _

omit [DecidableEq ι] in
theorem assistantStart_kept (hz now : Nat) (up linkUp : Bool) :
    AssistantKept hz (assistantStart now up linkUp : Assistant ι) := by
  constructor
  all_goals intros
  all_goals contradiction

def Alone (state : Assistant ι) (thread : ι) : Prop :=
  (∀ other call, other ≠ thread → state.threads other = .connect call →
    call.pc.registered = false) ∧
  ∀ other call, other ≠ thread → state.threads other = .stop call →
    call.pc = .polling

omit [DecidableEq ι] in
theorem AssistantKept.alone {hz : Nat} {state : Assistant ι}
    (kept : AssistantKept hz state) {thread : ι} {call : ConnectCall}
    (here : state.threads thread = .connect call)
    (registered : call.pc.registered = true) : Alone state thread := by
  constructor
  · intro other connect different found
    by_contra also
    rw [Bool.not_eq_false] at also
    exact different (kept.one other thread connect call found here also registered)
  · intro other stop _ found
    cases pc : stop.pc with
    | polling => rfl
    | resetting =>
        have gone := kept.resetting thread other call stop here found pc
        rw [registered] at gone
        cases gone

section Moves

variable {hz : Nat} {state next : Assistant ι}

theorem AssistantKept.move (kept : AssistantKept hz state) (thread : ι)
    (to_ : AssistantThread)
    (threads : ∀ other, next.threads other =
      if other = thread then to_ else state.threads other)
    (number : state.number ≤ next.number)
    (calls : ∀ other call, other ≠ thread →
      state.threads other = .connect call → ConnectKept hz next call)
    (connect : ∀ call, to_ = .connect call → ConnectKept hz next call ∧
      (call.pc.registered = true → Alone state thread) ∧
      (call.pc = .preparing → ∀ other stop, state.threads other = .stop stop →
        stop.number ≤ call.number))
    (stop : ∀ call, to_ = .stop call → call.number ≤ next.number ∧
      (∀ other connect, state.threads other = .connect connect →
        connect.pc = .preparing → call.number ≤ connect.number) ∧
      (call.pc = .resetting → ∀ other connect,
        state.threads other = .connect connect →
          connect.pc.registered = false)) :
    AssistantKept hz next := by
  have cases_ : ∀ other found, next.threads other = found →
      (other = thread ∧ to_ = found) ∨
        (other ≠ thread ∧ state.threads other = found) := by
    intro other found place
    rw [threads] at place
    by_cases same : other = thread
    · rw [if_pos same] at place
      exact Or.inl ⟨same, place⟩
    · rw [if_neg same] at place
      exact Or.inr ⟨same, place⟩
  constructor
  case calls =>
    intro other call found
    rcases cases_ other _ found with ⟨_, new⟩ | ⟨different, old⟩
    · exact (connect call new).1
    · exact calls other call different old
  case stops =>
    intro other call found
    rcases cases_ other _ found with ⟨_, new⟩ | ⟨_, old⟩
    · exact (stop call new).1
    · exact Nat.le_trans (kept.stops other call old) number
  case one =>
    intro left right leftCall rightCall leftFound rightFound leftIn rightIn
    rcases cases_ left _ leftFound with ⟨isLeft, newLeft⟩ | ⟨notLeft, oldLeft⟩
    · rcases cases_ right _ rightFound with ⟨isRight, _⟩ | ⟨notRight, oldRight⟩
      · rw [isLeft, isRight]
      · have alone := (connect leftCall newLeft).2.1 leftIn
        rw [alone.1 right rightCall notRight oldRight] at rightIn
        cases rightIn
    · rcases cases_ right _ rightFound with ⟨_, newRight⟩ | ⟨_, oldRight⟩
      · have alone := (connect rightCall newRight).2.1 rightIn
        rw [alone.1 left leftCall notLeft oldLeft] at leftIn
        cases leftIn
      · exact kept.one left right leftCall rightCall oldLeft oldRight leftIn rightIn
  case behind =>
    intro left right call other leftFound rightFound preparing
    rcases cases_ left _ leftFound with ⟨isLeft, newLeft⟩ | ⟨_, oldLeft⟩
    · rcases cases_ right _ rightFound with ⟨_, newRight⟩ | ⟨_, oldRight⟩
      · rw [newLeft] at newRight
        cases newRight
      · exact (connect call newLeft).2.2 preparing right other oldRight
    · rcases cases_ right _ rightFound with ⟨_, newRight⟩ | ⟨_, oldRight⟩
      · exact (stop other newRight).2.1 left call oldLeft preparing
      · exact kept.behind left right call other oldLeft oldRight preparing
  case resetting =>
    intro left right call other leftFound rightFound resetting
    rcases cases_ left _ leftFound with ⟨_, newLeft⟩ | ⟨_, oldLeft⟩
    · rcases cases_ right _ rightFound with ⟨_, newRight⟩ | ⟨notRight, oldRight⟩
      · rw [newLeft] at newRight
        cases newRight
      · by_contra registered
        rw [Bool.not_eq_false] at registered
        have polling :=
          ((connect call newLeft).2.1 registered).2 right other notRight oldRight
        rw [resetting] at polling
        cases polling
    · rcases cases_ right _ rightFound with ⟨_, newRight⟩ | ⟨_, oldRight⟩
      · exact (stop other newRight).2.2 resetting left call oldLeft
      · exact kept.resetting left right call other oldLeft oldRight resetting

omit [DecidableEq ι] in
/-- Where the byte and the requests are as before, so is what holds of a
call. -/
theorem ConnectKept.same {call : ConnectCall} (kept : ConnectKept hz state call)
    (number : state.number ≤ next.number) (now : state.now ≤ next.now)
    (byte : next.stopConnectAp = state.stopConnectAp)
    (requests : next.requests = state.requests) : ConnectKept hz next call :=
  { number := Nat.lt_of_lt_of_le kept.number number
    entered := Nat.le_trans kept.entered now
    timeout := kept.timeout
    preparing := by rw [requests]; exact kept.preparing
    connecting := by rw [byte]; exact kept.connecting
    told := by rw [byte, requests]; exact kept.told
    testLink := fun begun seen place =>
      ⟨Nat.le_trans (kept.testLink begun seen place).1 now,
        (kept.testLink begun seen place).2⟩
    testTicks := fun begun seen place =>
      ⟨Nat.le_trans (kept.testTicks begun seen place).1 now,
        (kept.testTicks begun seen place).2⟩ }

omit [DecidableEq ι] in
/-- A call that has nothing in the byte keeps what holds of it when only the
byte changes. -/
theorem ConnectKept.unregistered {call : ConnectCall}
    (kept : ConnectKept hz state call) (out : call.pc.registered = false)
    (number : next.number = state.number) (now : next.now = state.now)
    (requests : call.pc = .preparing → next.requests = state.requests) :
    ConnectKept hz next call :=
  { number := by rw [number]; exact kept.number
    entered := by rw [now]; exact kept.entered
    timeout := kept.timeout
    preparing := fun place => (kept.preparing place).trans (requests place).symm
    connecting := fun registered => by rw [out] at registered; cases registered
    told := fun registered => by rw [out] at registered; cases registered
    testLink := by rw [now]; exact kept.testLink
    testTicks := by rw [now]; exact kept.testTicks }

end Moves

/-! ### Steps -/

section KeptSteps

variable {hz : Nat} {state : Assistant ι}

omit [DecidableEq ι] in
theorem ConnectKept.goto {call : ConnectCall} (own : ConnectKept hz state call)
    (registered : call.pc.registered = true) {pc : ConnectPc}
    (on : pc ≠ .preparing) (waits : pc.waits = true → call.pc.waits = true)
    (test : ∀ begun requests,
      pc = .testLink begun requests ∨ pc = .testTicks begun requests →
        begun ≤ state.now ∧ requests = call.requests) :
    ConnectKept hz state { call with pc := pc } :=
  { own with
    preparing := fun same => absurd same on
    connecting := fun _ => own.connecting registered
    told := fun _ waiting => own.told registered (waits waiting)
    testLink := fun begun requests same => test begun requests (.inl same)
    testTicks := fun begun requests same => test begun requests (.inr same) }

theorem AssistantKept.goto (kept : AssistantKept hz state) {thread : ι}
    {call : ConnectCall} (here : state.threads thread = .connect call)
    (registered : call.pc.registered = true) {pc : ConnectPc}
    (on : pc ≠ .preparing) (own : ConnectKept hz state { call with pc := pc }) :
    AssistantKept hz (state.put thread (call.goto pc)) := by
  apply kept.move thread (call.goto pc)
    (fun other => put_threads state thread other _) (Nat.le_refl _)
  · intro other connect _ found
    exact (kept.calls other connect found).same (Nat.le_refl _) (Nat.le_refl _)
      rfl rfl
  · rintro _ ⟨⟩
    refine ⟨own.same (Nat.le_refl _) (Nat.le_refl _) rfl rfl,
      fun _ => kept.alone here registered, fun preparing => ?_⟩
    exact absurd preparing on
  · rintro _ ⟨⟩

theorem AssistantKept.ends (kept : AssistantKept hz state) {thread : ι}
    {call : ConnectCall} (here : state.threads thread = .connect call)
    (registered : call.pc.registered = true) (by_ : WaitEnd) :
    AssistantKept hz (state.put thread (call.goto (.resetting by_))) := by
  refine kept.goto here registered ConnectPc.noConfusion ?_
  apply (kept.calls thread call here).goto registered ConnectPc.noConfusion
  · intro waits
    cases waits
  · intro begun requests same
    rcases same with same | same
    · cases same
    · cases same

theorem AssistantKept.leave (kept : AssistantKept hz state) (thread : ι) :
    AssistantKept hz (state.put thread .idle) := by
  apply kept.move thread .idle (fun other => put_threads state thread other _)
    (Nat.le_refl _)
  · intro other connect _ found
    exact (kept.calls other connect found).same (Nat.le_refl _) (Nat.le_refl _)
      rfl rfl
  · rintro _ ⟨⟩
  · rintro _ ⟨⟩

theorem connectStep_kept (kept : AssistantKept hz state) {thread : ι}
    {call : ConnectCall} (here : state.threads thread = .connect call)
    (staSet : Bool) (orderly : OrderlyCalls hz state (.step thread staSet)) :
    AssistantKept hz (connectStep state thread call staSet) := by
  have own := kept.calls thread call here
  unfold OrderlyCalls at orderly
  dsimp only at orderly
  rw [here] at orderly
  dsimp only at orderly
  unfold connectStep
  cases place : call.pc with
  | preparing =>
      rw [place] at orderly
      dsimp only at orderly ⊢
      cases staSet with
      | false => exact kept.leave thread
      | true =>
          obtain ⟨nobody, polling⟩ := orderly rfl
          apply kept.move thread (call.goto .testStop)
          · exact fun other => put_threads state thread other _
          · exact Nat.le_refl _
          · intro other connect _ found
            exact (kept.calls other connect found).unregistered
              (nobody other connect found) rfl rfl fun _ => rfl
          · rintro _ ⟨⟩
            refine ⟨?_, fun _ => ⟨fun other connect _ found =>
              nobody other connect found, fun other stop _ found =>
              polling other stop found⟩, fun same => by cases same⟩
            exact
              { number := own.number
                entered := own.entered
                timeout := own.timeout
                preparing := fun same => by cases same
                connecting := fun _ => rfl
                told := fun _ _ more => absurd (own.preparing place) more
                testLink := fun _ _ same => by cases same
                testTicks := fun _ _ same => by cases same }
          · rintro _ ⟨⟩
  | testStop =>
      have registered : call.pc.registered = true := by rw [place]; rfl
      have waits : call.pc.waits = true := by rw [place]; rfl
      dsimp only
      split_ifs with stopped
      · exact kept.ends here registered _
      · have untold : call.requests = state.requests := by
          by_contra more
          exact stopped (own.told registered waits more)
        refine kept.goto here registered ConnectPc.noConfusion ?_
        apply own.goto registered ConnectPc.noConfusion (fun _ => waits)
        intro begun requests same
        rcases same with same | same
        · cases same
          exact ⟨Nat.le_refl _, untold.symm⟩
        · cases same
  | testLink begun seen =>
      have registered : call.pc.registered = true := by rw [place]; rfl
      have waits : call.pc.waits = true := by rw [place]; rfl
      dsimp only
      split_ifs with linked
      · exact kept.ends here registered _
      · refine kept.goto here registered ConnectPc.noConfusion ?_
        apply own.goto registered ConnectPc.noConfusion (fun _ => waits)
        intro began requests same
        rcases same with same | same
        · cases same
        · cases same
          exact own.testLink begun seen place
  | testTicks begun seen =>
      have registered : call.pc.registered = true := by rw [place]; rfl
      have waits : call.pc.waits = true := by rw [place]; rfl
      dsimp only
      split_ifs with early
      · refine kept.goto here registered ConnectPc.noConfusion ?_
        apply own.goto registered ConnectPc.noConfusion (fun _ => waits)
        intro began requests same
        rcases same with same | same
        · cases same
        · cases same
      · exact kept.ends here registered _
  | resetting by_ =>
      have alone := kept.alone here (by rw [place]; rfl)
      dsimp only
      apply kept.move thread (call.goto (.verdict by_))
      · exact fun other => put_threads state thread other _
      · exact Nat.le_refl _
      · intro other connect different found
        exact (kept.calls other connect found).unregistered
          (alone.1 other connect different found) rfl rfl fun _ => rfl
      · rintro _ ⟨⟩
        refine ⟨?_, (fun registered => by cases registered),
          (fun same => by cases same)⟩
        exact
          { number := own.number
            entered := own.entered
            timeout := own.timeout
            preparing := fun same => by cases same
            connecting := fun registered => by cases registered
            told := fun registered => by cases registered
            testLink := fun _ _ same => by cases same
            testTicks := fun _ _ same => by cases same }
      · rintro _ ⟨⟩
  | verdict by_ => exact kept.leave thread

theorem stopStep_kept (kept : AssistantKept hz state) {thread : ι}
    {call : StopCall} (here : state.threads thread = .stop call) :
    AssistantKept hz (stopStep state thread call) := by
  unfold stopStep
  cases place : call.pc with
  | polling =>
      dsimp only
      split_ifs with connecting
      · exact kept
      · have nobody : ∀ other connect, state.threads other = .connect connect →
            connect.pc.registered = false := by
          intro other connect found
          by_contra registered
          rw [Bool.not_eq_false] at registered
          exact connecting ((kept.calls other connect found).connecting registered)
        apply kept.move thread (.stop { call with pc := .resetting })
        · exact fun other => put_threads state thread other _
        · exact Nat.le_refl _
        · intro other connect _ found
          exact (kept.calls other connect found).same (Nat.le_refl _)
            (Nat.le_refl _) rfl rfl
        · rintro _ ⟨⟩
        · rintro _ ⟨⟩
          exact ⟨kept.stops thread call here, fun other connect found preparing =>
            kept.behind other thread connect call found here preparing,
            fun _ => nobody⟩
  | resetting =>
      have nobody : ∀ other connect, state.threads other = .connect connect →
          connect.pc.registered = false := fun other connect found =>
        kept.resetting other thread connect _ found here place
      dsimp only
      apply kept.move thread .idle
      · exact fun other => put_threads state thread other _
      · exact Nat.le_refl _
      · intro other connect _ found
        exact (kept.calls other connect found).unregistered
          (nobody other connect found) rfl rfl fun _ => rfl
      · rintro _ ⟨⟩
      · rintro _ ⟨⟩

theorem assistantStep_kept (kept : AssistantKept hz state)
    (event : AssistantEvent ι) (orderly : OrderlyCalls hz state event) :
    AssistantKept hz (assistantStep hz state event) := by
  cases event with
  | tick =>
      exact
        { kept with
          calls := fun thread call found => (kept.calls thread call found).same
            (Nat.le_refl _) (Nat.le_succ _) rfl rfl }
  | interface up linkUp =>
      exact
        { kept with
          calls := fun thread call found => (kept.calls thread call found).same
            (Nat.le_refl _) (Nat.le_refl _) rfl rfl }
  | callConnect thread timeoutMs nif =>
      unfold assistantStep
      dsimp only
      cases here : state.threads thread with
      | idle =>
          dsimp only
          apply kept.move thread
          · exact fun other => put_threads state thread other _
          · exact Nat.le_succ _
          · intro other connect _ found
            exact (kept.calls other connect found).same (Nat.le_succ _)
              (Nat.le_refl _) rfl rfl
          · rintro _ ⟨⟩
            refine ⟨?_, (fun registered => by cases registered),
              fun _ other stop found => kept.stops other stop found⟩
            exact
              { number := Nat.lt_succ_self _
                entered := Nat.le_refl _
                timeout := rfl
                preparing := fun _ => rfl
                connecting := fun registered => by cases registered
                told := fun registered => by cases registered
                testLink := fun _ _ place => by cases place
                testTicks := fun _ _ place => by cases place }
          · rintro _ ⟨⟩
      | connect call => exact kept
      | stop call => exact kept
  | callStop thread =>
      unfold assistantStep
      dsimp only
      cases here : state.threads thread with
      | idle =>
          have prepared := orderly here
          dsimp only
          apply kept.move thread
          · exact fun other => put_threads state thread other _
          · exact Nat.le_refl _
          · intro other connect _ found
            have old := kept.calls other connect found
            exact
              { number := old.number
                entered := old.entered
                timeout := old.timeout
                preparing := fun place => absurd place (prepared other connect found)
                connecting := old.connecting
                told := fun _ _ _ => rfl
                testLink := old.testLink
                testTicks := old.testTicks }
          · rintro _ ⟨⟩
          · rintro _ ⟨⟩
            exact ⟨Nat.le_refl _, fun other connect found preparing =>
              absurd preparing (prepared other connect found),
              fun place => by cases place⟩
      | connect call => exact kept
      | stop call => exact kept
  | step thread staSet =>
      unfold assistantStep
      dsimp only
      cases here : state.threads thread with
      | idle => exact kept
      | connect call => exact connectStep_kept kept here staSet orderly
      | stop call => exact stopStep_kept kept here

/-- What is kept makes the next step of an orderly run wait as it should. -/
theorem waitsTrue_of_kept (kept : AssistantKept hz state)
    (event : AssistantEvent ι) (orderly : OrderlyCalls hz state event) :
    WaitsTrue hz state event := by
  cases event with
  | tick => trivial
  | interface up linkUp => trivial
  | callConnect thread timeoutMs nif => trivial
  | callStop thread => trivial
  | step thread staSet =>
      unfold OrderlyCalls at orderly
      unfold WaitsTrue
      dsimp only at orderly ⊢
      cases here : state.threads thread with
      | idle => trivial
      | connect call =>
          have own := kept.calls thread call here
          rw [here] at orderly
          dsimp only at orderly ⊢
          cases place : call.pc with
          | preparing => trivial
          | testStop => trivial
          | testLink begun requests => trivial
          | testTicks begun requests =>
              rw [place] at orderly
              dsimp only at orderly ⊢
              intro early
              obtain ⟨begunBefore, untold⟩ := own.testTicks begun requests place
              rw [inTime_iff_awaited own.timeout own.entered orderly] at early
              have soon := early.1
              unfold ConnectCall.deadline at soon
              refine ⟨?_, untold⟩
              calc (begun - call.entered) * 1000 ≤
                    osTicksToMSecs hz call.timeoutMs.toNat * 1000 :=
                  Nat.mul_le_mul_right _ (by omega)
                _ ≤ call.timeoutMs.toNat * hz := osTicksToMSecs_le hz _
          | resetting by_ => trivial
          | verdict by_ => trivial
      | stop call =>
          dsimp only
          intro resetting
          constructor
          · unfold assistantStep
            dsimp only
            rw [here]
            dsimp only
            unfold stopStep
            rw [resetting]
            rfl
          · intro other connect found earlier
            have out := kept.resetting other thread connect call found here resetting
            cases place : connect.pc with
            | preparing =>
                have later := kept.behind other thread connect call found here place
                omega
            | verdict by_ => rfl
            | resetting by_ => rfl
            | testStop => rw [place] at out; cases out
            | testLink begun requests => rw [place] at out; cases out
            | testTicks begun requests => rw [place] at out; cases out

/-! ### Verdicts -/

/-- A call whose loop was not ended by the link has passed its deadline, unless
that was 2^31 ticks away from the start. -/
def EndsLate (hz : Nat) (state : Assistant ι) (call : ConnectCall) : Prop :=
  ∀ by_, call.pc = .resetting by_ ∨ call.pc = .verdict by_ → by_ ≠ .link →
    call.deadline hz < state.now ∨
      2 ^ 31 ≤ osTicksToMSecs hz call.timeoutMs.toNat

def AssistantLate (hz : Nat) (state : Assistant ι) : Prop :=
  ∀ thread call, state.threads thread = .connect call → EndsLate hz state call

/-- A deadline that is not awaited has passed or is that far away. -/
theorem late_of_not_awaited {call : ConnectCall} {now : Nat}
    (entered : call.entered ≤ now) (not : ¬ Awaited (call.deadline hz) now) :
    call.deadline hz < now ∨ 2 ^ 31 ≤ osTicksToMSecs hz call.timeoutMs.toNat := by
  unfold Awaited at not
  unfold ConnectCall.deadline at not ⊢
  omega

theorem AssistantLate.put (late : AssistantLate hz state) (thread : ι)
    (to_ : AssistantThread)
    (own : ∀ call, to_ = .connect call → EndsLate hz state call) :
    AssistantLate hz (state.put thread to_) := by
  intro other call found
  rw [put_threads] at found
  by_cases same : other = thread
  · rw [if_pos same] at found
    exact own call found
  · rw [if_neg same] at found
    exact late other call found

theorem AssistantLate.inLoop (late : AssistantLate hz state) (thread : ι)
    (call : ConnectCall) {pc : ConnectPc} (resetting : ∀ by_, pc ≠ .resetting by_)
    (verdict : ∀ by_, pc ≠ .verdict by_) :
    AssistantLate hz (state.put thread (call.goto pc)) := by
  apply late.put
  rintro _ ⟨⟩ by_ (place | place) _
  · exact absurd place (resetting by_)
  · exact absurd place (verdict by_)

theorem AssistantLate.ends (late : AssistantLate hz state) (thread : ι)
    (call : ConnectCall) (by_ : WaitEnd)
    (own : by_ ≠ .link → call.deadline hz < state.now ∨
      2 ^ 31 ≤ osTicksToMSecs hz call.timeoutMs.toNat) :
    AssistantLate hz (state.put thread (call.goto (.resetting by_))) := by
  apply late.put
  rintro _ ⟨⟩ other (same | impossible) different
  · cases same
    exact own different
  · cases impossible

theorem AssistantLate.leave (late : AssistantLate hz state) (thread : ι) :
    AssistantLate hz (state.put thread .idle) := by
  apply late.put
  rintro _ ⟨⟩

theorem connectStep_late (kept : AssistantKept hz state)
    (late : AssistantLate hz state) {thread : ι} {call : ConnectCall}
    (here : state.threads thread = .connect call) (staSet : Bool)
    (orderly : OrderlyCalls hz state (.step thread staSet))
    (timely : TimelyCalls hz state (.step thread staSet)) :
    AssistantLate hz (connectStep state thread call staSet) := by
  have own := kept.calls thread call here
  unfold OrderlyCalls at orderly
  unfold TimelyCalls at timely
  dsimp only at orderly timely
  rw [here] at orderly timely
  dsimp only at orderly timely
  unfold connectStep
  cases place : call.pc with
  | preparing =>
      dsimp only
      split_ifs
      · exact late.inLoop thread call (fun _ => ConnectPc.noConfusion)
          fun _ => ConnectPc.noConfusion
      · exact late.leave thread
  | testStop =>
      rw [place] at timely
      dsimp only at timely ⊢
      split_ifs with stopped
      · exact late.ends thread call .stop fun _ =>
          late_of_not_awaited own.entered (timely stopped)
      · exact late.inLoop thread call (fun _ => ConnectPc.noConfusion)
          fun _ => ConnectPc.noConfusion
  | testLink begun seen =>
      dsimp only
      split_ifs
      · exact late.ends thread call .link fun different => absurd rfl different
      · exact late.inLoop thread call (fun _ => ConnectPc.noConfusion)
          fun _ => ConnectPc.noConfusion
  | testTicks begun seen =>
      rw [place] at orderly
      dsimp only at orderly ⊢
      split_ifs with early
      · exact late.inLoop thread call (fun _ => ConnectPc.noConfusion)
          fun _ => ConnectPc.noConfusion
      · rw [inTime_iff_awaited own.timeout own.entered orderly] at early
        exact late.ends thread call .deadline fun _ =>
          late_of_not_awaited own.entered early
  | resetting by_ =>
      have before := late thread call here by_ (.inl place)
      refine late.put thread (call.goto (.verdict by_)) ?_
      rintro _ ⟨⟩ other (impossible | same) different
      · cases impossible
      · cases same
        exact before different
  | verdict by_ => exact late.leave thread

theorem assistantStep_late (kept : AssistantKept hz state)
    (late : AssistantLate hz state) (event : AssistantEvent ι)
    (orderly : OrderlyCalls hz state event)
    (timely : TimelyCalls hz state event) :
    AssistantLate hz (assistantStep hz state event) := by
  cases event with
  | tick =>
      intro thread call found by_ place different
      exact (late thread call found by_ place different).imp_left Nat.lt_succ_of_lt
  | interface up linkUp => exact late
  | callConnect thread timeoutMs nif =>
      unfold assistantStep
      dsimp only
      cases here : state.threads thread with
      | idle =>
          refine late.put thread _ ?_
          rintro _ ⟨⟩ by_ (impossible | impossible) _
          · cases impossible
          · cases impossible
      | connect call => exact late
      | stop call => exact late
  | callStop thread =>
      unfold assistantStep
      dsimp only
      cases here : state.threads thread with
      | idle =>
          refine late.put thread _ ?_
          rintro _ ⟨⟩
      | connect call => exact late
      | stop call => exact late
  | step thread staSet =>
      unfold assistantStep
      dsimp only
      cases here : state.threads thread with
      | idle => exact late
      | connect call =>
          exact connectStep_late kept late here staSet orderly timely
      | stop call =>
          dsimp only
          unfold stopStep
          cases call.pc with
          | polling =>
              dsimp only
              split_ifs
              · exact late
              · refine late.put thread _ ?_
                rintro _ ⟨⟩
          | resetting => exact late.leave thread

omit [DecidableEq ι] in
theorem verdictTrue_of_late (kept : AssistantKept hz state)
    (late : AssistantLate hz state) (event : AssistantEvent ι)
    (timely : TimelyCalls hz state event) : VerdictTrue state event := by
  rintro thread staSet call by_ rfl here place
  have own := kept.calls thread call here
  have before := late thread call here by_ (.inr place)
  unfold TimelyCalls at timely
  dsimp only at timely
  rw [here] at timely
  dsimp only at timely
  rw [place] at timely
  have zero : call.result state.now = 0 ↔ call.inTime state.now = true := by
    unfold ConnectCall.result
    cases call.inTime state.now with
    | true => exact iff_of_true rfl rfl
    | false => exact iff_of_false (by decide) Bool.false_ne_true
  -- The loop was not ended by the link: the deadline is not awaited.
  have notInTime : by_ ≠ .link → state.now ≤ call.deadline hz + 2 ^ 31 ∧
      (2 ^ 31 ≤ osTicksToMSecs hz call.timeoutMs.toNat →
        state.now + 2 ^ 31 ≤ call.deadline hz) →
      ¬ call.inTime state.now = true := by
    rintro different ⟨bounded, far⟩
    rw [inTime_iff_awaited own.timeout own.entered bounded]
    rintro ⟨ahead, near⟩
    rcases before different with passed | long
    · omega
    · exact absurd (far long) (by omega)
  rw [zero]
  cases by_ with
  | link =>
      have awaited : Awaited (call.deadline hz) state.now := timely
      exact iff_of_true ((inTime_iff_awaited own.timeout own.entered
        (Nat.le_trans awaited.1 (Nat.le_add_right _ _))).mpr awaited) rfl
  | stop => exact iff_of_false (notInTime (by decide) timely) (by decide)
  | deadline => exact iff_of_false (notInTime (by decide) timely) (by decide)

/-- Where every step is orderly, every step waits as it should; where every step
is timely too, every verdict is true. -/
theorem connectAp_truthful (hz now : Nat) (up linkUp : Bool)
    (events : List (AssistantEvent ι))
    (orderly : Along (assistantStep hz) (OrderlyCalls hz)
      (assistantStart now up linkUp) events) :
    Along (assistantStep hz) (WaitsTrue hz) (assistantStart now up linkUp) events ∧
      (Along (assistantStep hz) (TimelyCalls hz) (assistantStart now up linkUp)
          events →
        Along (assistantStep hz) (Truthful hz) (assistantStart now up linkUp)
          events) := by
  constructor
  · exact along_of_along (WaitsTrue hz) (OrderlyCalls hz) (AssistantKept hz)
      (fun _ event kept orderly => assistantStep_kept kept event orderly)
      (fun _ event kept orderly => waitsTrue_of_kept kept event orderly)
      _ (assistantStart_kept hz now up linkUp) events orderly
  · intro timely
    apply along_of_along (Truthful hz)
      (fun state event => OrderlyCalls hz state event ∧ TimelyCalls hz state event)
      (fun state => AssistantKept hz state ∧ AssistantLate hz state)
    · rintro state event ⟨kept, late⟩ ⟨orderly, timely⟩
      exact ⟨assistantStep_kept kept event orderly,
        assistantStep_late kept late event orderly timely⟩
    · rintro state event ⟨kept, late⟩ ⟨orderly, timely⟩
      exact ⟨verdictTrue_of_late kept late event timely,
        waitsTrue_of_kept kept event orderly⟩
    · exact ⟨assistantStart_kept hz now up linkUp, fun _ _ impossible => by
        cases impossible⟩
    · exact (along_and _ _ _ _).mpr ⟨orderly, timely⟩

end KeptSteps

/-- The thread `false` connects, with the link up at its second test. -/
def linkComesUp : List (AssistantEvent Bool) :=
  [.callConnect false 5000#32 true, .step false true, .step false true,
    .step false true, .step false true, .tick, .interface true true,
    .step false true, .step false true, .step false true, .step false true]

theorem linkComesUp_truthful :
    Along (assistantStep 1000) (Truthful 1000) (assistantStart 7 false false)
      linkComesUp := by
  apply (connectAp_truthful 1000 7 false false linkComesUp ?_).2
  · refine ⟨trivial, trivial, ?_, trivial, trivial, trivial, trivial, ?_, trivial,
      trivial, ?_, trivial⟩
    · intro stopped
      cases stopped
    · intro stopped
      cases stopped
    · change Awaited (7 + osTicksToMSecs 1000 5000) 8
      exact ⟨by decide, by decide⟩
  · refine ⟨trivial, ?_, trivial, trivial, ?_, trivial, trivial, trivial, trivial,
      trivial, trivial, trivial⟩
    · intro _
      constructor
      · intro other connect found
        cases other with
        | false => cases found; rfl
        | true => cases found
      · intro other stop found
        cases other with
        | false => cases found
        | true => cases found
    · change 7 ≤ 7 + osTicksToMSecs 1000 5000 + 2 ^ 31
      omega

/-- A stop is requested while the call waits, and the call returns 0. -/
theorem stopped_untruthful :
    ¬ Along (assistantStep 1000) (Truthful 1000) (assistantStart 7 false false)
      [AssistantEvent.callConnect false 5000#32 true, .step false true,
        .callStop true, .step false true, .step false true, .step false true] := by
  rintro ⟨_, _, _, _, _, ⟨verdict, _⟩, _⟩
  have told : (0 : Int) = 0 ↔ WaitEnd.stop = WaitEnd.link :=
    verdict false true _ .stop rfl rfl rfl
  exact absurd (told.mp rfl) (by decide)

end XR872.SmartLink
