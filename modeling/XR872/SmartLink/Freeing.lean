/-
When stop frees a session.

A RUN bit says no more than that some call has set it since it was last cleared:
a call has the session before it sets its bit, and any call clears the bit for
all. A STOP bit is lost in the same way. What stop and the calls have to keep to
is a condition on each step; under it a RUN bit tells whether there is a call,
nothing is used behind its end, and each STOP reaches the calls it was meant
for.
-/

import XR872.SmartLink.Session

namespace XR872.SmartLink

open Runs

namespace CallPc

/-- The call has set the RUN bit of the activity and not cleared it. -/
def inside (task : Task) (pc : CallPc) : Bool :=
  decide (pc.task = some (task, .looping) ∨ pc.task = some (task, .left))

def looksAt (task : Task) (pc : CallPc) : Bool :=
  pc.concerned task && decide (pc.task ≠ some (task, .left))

/-- A `connect_ack`. -/
def isAck (pc : CallPc) : Bool := pc.concerned .ackRun

theorem isAck_of_connectAp (pc : CallPc)
    (concerned : pc.concerned .connectAp = true) : pc.isAck = true := by
  cases pc with
  | waiting place => cases concerned
  | opening => rfl
  | connecting place => rfl
  | acking place => rfl

theorem isAck_at_ (pc : CallPc) (place : TaskPc) :
    (pc.at_ place).isAck = pc.isAck := by
  cases pc with
  | waiting _ => rfl
  | opening => rfl
  | connecting _ => rfl
  | acking _ => rfl

theorem isAck_of_behind {pc next : CallPc} (goes : pc.behind = some next) :
    pc.isAck = true ∧ ∀ task, next.inside task = false := by
  cases pc with
  | waiting _ => cases goes
  | opening => cases goes
  | connecting _ =>
      cases goes
      refine ⟨rfl, ?_⟩
      intro task
      cases task with
      | waiting => rfl
      | connectAp => rfl
      | ackRun => rfl
  | acking _ => cases goes

theorem inside_at_ {pc : CallPc} {task other : Task} {place next : TaskPc}
    (inTask : pc.task = some (task, place))
    (isInside : (pc.at_ next).inside other = true) : other = task := by
  cases pc with
  | opening => cases inTask
  | waiting _ =>
      cases inTask
      cases other <;> simp_all [inside, CallPc.task, at_]
  | connecting _ =>
      cases inTask
      cases other <;> simp_all [inside, CallPc.task, at_]
  | acking _ =>
      cases inTask
      cases other <;> simp_all [inside, CallPc.task, at_]

theorem looksAt_looping {pc : CallPc} {task other : Task}
    (inTask : pc.task = some (task, .before)) (looks : pc.looksAt other = true) :
    (pc.at_ .looping).looksAt other = true := by
  cases pc with
  | opening => cases inTask
  | waiting place =>
      cases inTask
      cases other <;> simp_all [looksAt, concerned, CallPc.task, at_]
  | connecting place =>
      cases inTask
      cases other <;> simp_all [looksAt, concerned, CallPc.task, at_]
  | acking place =>
      cases inTask
      cases other <;> simp_all [looksAt, concerned, CallPc.task, at_]

/-- Where a call is in one activity makes no difference to the others. -/
theorem looksAt_other {pc : CallPc} {task other : Task} {place : TaskPc}
    (inTask : pc.task = some (task, place)) (different : other ≠ task)
    (next : TaskPc) (looks : pc.looksAt other = true) :
    (pc.at_ next).looksAt other = true := by
  cases pc with
  | opening => cases inTask
  | waiting place =>
      cases inTask
      cases other <;> simp_all [looksAt, concerned]
  | connecting place =>
      cases inTask
      cases other <;> simp_all [looksAt, concerned, CallPc.task, at_]
  | acking place =>
      cases inTask
      cases other <;> simp_all [looksAt, concerned]

theorem looksAt_behind {pc : CallPc} {task other : Task}
    (inTask : pc.task = some (task, .left)) (different : other ≠ task)
    (looks : pc.looksAt other = true) :
    ∃ next, pc.behind = some next ∧ next.looksAt other = true := by
  cases pc with
  | opening => cases inTask
  | waiting place =>
      cases inTask
      cases other <;> simp_all [looksAt, concerned]
  | connecting place =>
      cases inTask
      cases other <;> simp_all [looksAt, concerned, CallPc.task, behind]
  | acking place =>
      cases inTask
      cases other <;> simp_all [looksAt, concerned]

end CallPc

namespace Session

variable (link : Link)

/-- The session is not used when it is freed, and a STOP bit stays set until
the calls that it was meant for have read it. -/
def UsedRightly (session : Session) (event : Event) : Prop :=
  (session.accesses link event = true → session.live = true) ∧
    ∀ task call, (session.step link event).owed task call = true →
      ((session.step link event).bits task).stop = true

def NoneLeft (session : Session) (task : Task) : Prop :=
  ∀ call pc, session.calls call = some pc → pc.task ≠ some (task, .left)

/-- Of the calls that come to the activity, none is in front of setting its RUN
bit. -/
def NoneAhead (session : Session) (task : Task) : Prop :=
  ∀ call pc, session.calls call = some pc → pc.concerned task = true →
    pc.inside task = true

/-- The call is the only one inside of the activity, and if it was stopped, the
only one that was to look. -/
def Alone (session : Session) (task : Task) (call : Nat) : Prop :=
  ∀ other pc, other ≠ call → session.calls other = some pc →
    pc.inside task = false ∧
      ((session.bits task).stop = true → pc.looksAt task = false)

/-- What the steps have to keep to. -/
def Orderly (session : Session) : Event → Prop
  | .clear call =>
      ∀ pc task, session.taskOf call = some (pc, task, .left) →
        task ≠ .connectAp → session.Alone task call
  | .stop =>
      match session.stop with
      | .requestAck => session.NoneLeft .ackRun
      | .awaitAck =>
          (session.bits .ackRun).run = false → session.NoneAhead .ackRun
      | .requestWait => session.NoneLeft .waiting
      | .awaitWait =>
          (session.bits .waiting).run = false → session.NoneAhead .waiting
      | _ => True
  | _ => True

/-! ### What holds of every state -/

/-- A session that is freed is out of reach; behind the look at `ack_run` there
is no `connect_ack`; what is owed a STOP will look at the bit and find it; the
RUN bit is set while a call is inside. -/
structure Held (session : Session) : Prop where
  freed : session.live = false →
    session.priv = false ∧ session.stop = .done ∧
      ∀ call, session.calls call = none
  reached : session.priv = true →
    session.stop = .idle ∨ session.stop = .requestAck ∨
      session.stop = .awaitAck
  noAck : session.priv = false → ∀ call pc, session.calls call = some pc →
    pc.isAck = false
  owed : ∀ task call, session.owed task call = true → task ≠ .connectAp ∧
    (session.bits task).stop = true ∧
      ∃ pc, session.calls call = some pc ∧ pc.looksAt task = true
  marked : ∀ task call pc, task ≠ .connectAp → session.calls call = some pc →
    pc.inside task = true → (session.bits task).run = true

theorem held_start : Held start := by
  exact {
    freed := fun freed => by cases freed
    reached := fun _ => Or.inl rfl
    noAck := fun noPriv => by cases noPriv
    owed := fun task call owed => by cases owed
    marked := fun task call pc _ here => by cases here }

theorem taskOf_eq_some {session : Session} {call : Nat} {pc : CallPc}
    {task : Task} {place : TaskPc}
    (found : session.taskOf call = some (pc, task, place)) :
    session.calls call = some pc ∧ pc.task = some (task, place) := by
  unfold taskOf at found
  cases calls : session.calls call with
  | none =>
      rw [calls] at found
      cases found
  | some other =>
      rw [calls] at found
      cases inTask : other.task with
      | none => simp [inTask] at found
      | some pair =>
          simp only [Option.bind_some, inTask, Option.map_some,
            Option.some.injEq, Prod.mk.injEq] at found
          obtain ⟨same, isPair⟩ := found
          rw [← same, inTask, isPair]
          exact ⟨rfl, rfl⟩

theorem Held.accesses {session : Session} (held : Held session) (event : Event)
    (access : session.accesses link event = true) : session.live = true := by
  by_contra freed
  rw [Bool.not_eq_true] at freed
  obtain ⟨noPriv, done, none⟩ := held.freed freed
  have noTask : ∀ call, session.taskOf call = Option.none := by
    intro call
    unfold taskOf
    rw [none call]
    rfl
  cases event with
  | wait call => cases access
  | connectAck call result readable => simp [Session.accesses, noPriv] at access
  | openSta call => simp [Session.accesses, none] at access
  | staSetFails call => cases access
  | run call => simp [Session.accesses, noTask] at access
  | test call goesOn => simp [Session.accesses, noTask] at access
  | clear call => simp [Session.accesses, noTask] at access
  | stop => simp [Session.accesses, done] at access

/-! ### What a step keeps -/

namespace Held

variable {session : Session} (held : Held session)

include held

theorem live_of_call {call : Nat} {pc : CallPc}
    (here : session.calls call = some pc) : session.live = true := by
  by_contra freed
  rw [Bool.not_eq_true] at freed
  obtain ⟨_, _, none⟩ := held.freed freed
  rw [none call] at here
  cases here

theorem live_of_priv (priv : session.priv = true) : session.live = true := by
  by_contra freed
  rw [Bool.not_eq_true] at freed
  rw [(held.freed freed).1] at priv
  cases priv

theorem live_of_stop (more : session.stop ≠ .done) : session.live = true := by
  by_contra freed
  rw [Bool.not_eq_true] at freed
  exact more (held.freed freed).2.1

/-- Behind the look at `ack_run` the session is out of reach. -/
theorem unreached (idle : session.stop ≠ .idle)
    (requestAck : session.stop ≠ .requestAck)
    (awaitAck : session.stop ≠ .awaitAck) : session.priv = false := by
  by_contra priv
  rw [Bool.not_eq_false] at priv
  rcases held.reached priv with here | here | here
  · exact idle here
  · exact requestAck here
  · exact awaitAck here

/-- A call goes on: it still looks where it is owed a STOP, and its RUN bit is
set where it is inside. -/
theorem move (live : session.live = true) (call : Nat) (next : Option CallPc)
    (noAck : session.priv = false → ∀ pc, next = some pc → pc.isAck = false)
    (looks : ∀ task, session.owed task call = true →
      ∃ pc, next = some pc ∧ pc.looksAt task = true)
    (marked : ∀ task pc, task ≠ .connectAp → next = some pc →
      pc.inside task = true → (session.bits task).run = true) :
    Held (session.moveCall call next) := by
  have place : ∀ other pc, (session.moveCall call next).calls other = some pc →
      (other = call ∧ next = some pc) ∨ session.calls other = some pc := by
    intro other pc there
    change Function.update session.calls call next other = some pc at there
    by_cases same : other = call
    · rw [same, Function.update_self] at there
      exact Or.inl ⟨same, there⟩
    · rw [Function.update_of_ne same] at there
      exact Or.inr there
  exact {
    freed := by
      intro freed
      rw [show (session.moveCall call next).live = session.live from rfl,
        live] at freed
      cases freed
    reached := held.reached
    noAck := by
      intro noPriv other pc there
      rcases place other pc there with ⟨_, isNext⟩ | old
      · exact noAck noPriv pc isNext
      · exact held.noAck noPriv other pc old
    owed := by
      intro task other owed
      obtain ⟨noAp, stop, pc, here, look⟩ := held.owed task other owed
      refine ⟨noAp, stop, ?_⟩
      change ∃ pc, Function.update session.calls call next other = some pc ∧ _
      by_cases same : other = call
      · rw [same, Function.update_self]
        exact looks task (same ▸ owed)
      · rw [Function.update_of_ne same]
        exact ⟨pc, here, look⟩
    marked := by
      intro task other pc noAp there isInside
      rcases place other pc there with ⟨_, isNext⟩ | old
      · exact marked task pc noAp isNext isInside
      · exact held.marked task other pc noAp old isInside }

theorem begin_ (priv : session.priv = true) (call : Nat)
    (none : session.calls call = none) (pc : CallPc)
    (outside : ∀ task, pc.inside task = false) :
    Held (session.moveCall call (some pc)) := by
  apply held.move (held.live_of_priv priv)
  · intro noPriv
    rw [priv] at noPriv
    cases noPriv
  · intro task owed
    obtain ⟨_, _, _, here, _⟩ := held.owed task call owed
    rw [none] at here
    cases here
  · intro task other _ isNext isInside
    cases isNext
    rw [outside task] at isInside
    cases isInside

theorem read (owed : Task → Nat → Bool)
    (fewer : ∀ task call, owed task call = true →
      session.owed task call = true) :
    Held { session with owed } := by
  exact {
    freed := held.freed
    reached := held.reached
    noAck := held.noAck
    owed := fun task call isOwed => held.owed task call (fewer task call isOwed)
    marked := held.marked }

theorem putBits (task : Task) (bits : TaskBits)
    (stays : ∀ call, session.owed task call = true → bits.stop = true)
    (marked : task ≠ .connectAp → ∀ call pc, session.calls call = some pc →
      pc.inside task = true → bits.run = true) :
    Held (session.putBits task bits) := by
  exact {
    freed := held.freed
    reached := held.reached
    noAck := held.noAck
    owed := by
      intro other call owed
      obtain ⟨noAp, stop, looks⟩ := held.owed other call owed
      refine ⟨noAp, ?_, looks⟩
      change (Function.update session.bits task bits other).stop = true
      by_cases same : other = task
      · rw [same, Function.update_self]
        exact stays call (same ▸ owed)
      · rw [Function.update_of_ne same]
        exact stop
    marked := by
      intro other call pc noAp here isInside
      change (Function.update session.bits task bits other).run = true
      by_cases same : other = task
      · rw [same, Function.update_self]
        exact marked (same ▸ noAp) call pc here (same ▸ isInside)
      · rw [Function.update_of_ne same]
        exact held.marked other call pc noAp here isInside }

theorem request (live : session.live = true) (task : Task) (next : StopPc)
    (noneLeft : session.NoneLeft task)
    (noAp : task = .connectAp → session.priv = false)
    (reached : session.priv = true → next = .awaitAck) :
    Held (session.request task next) := by
  exact {
    freed := by
      intro freed
      rw [show (session.request task next).live = session.live from rfl,
        live] at freed
      cases freed
    reached := fun priv => Or.inr (Or.inr (reached priv))
    noAck := held.noAck
    owed := by
      intro other call owed
      change Function.update session.owed task _ other call = true at owed
      change other ≠ .connectAp ∧
        (Function.update session.bits task _ other).stop = true ∧
          ∃ pc, session.calls call = some pc ∧ pc.looksAt other = true
      by_cases same : other = task
      · rw [same, Function.update_self] at owed
        rw [same, Function.update_self]
        cases here : session.calls call with
        | none =>
            rw [here] at owed
            cases owed
        | some pc =>
            rw [here] at owed
            have stays := noneLeft call pc here
            refine ⟨?_, rfl, pc, rfl, Bool.and_eq_true_iff.mpr
              ⟨owed, decide_eq_true stays⟩⟩
            intro isAp
            have none := held.noAck (noAp isAp) call pc here
            rw [isAp] at owed
            rw [CallPc.isAck_of_connectAp pc owed] at none
            cases none
      · rw [Function.update_of_ne same] at owed ⊢
        exact held.owed other call owed
    marked := by
      intro other call pc noAp here isInside
      have run := held.marked other call pc noAp here isInside
      change (Function.update session.bits task _ other).run = true
      by_cases same : other = task
      · rw [same, Function.update_self]
        exact same ▸ run
      · rw [Function.update_of_ne same]
        exact run }

theorem goesOn (next : StopPc) (live : session.live = true)
    (reached : session.priv = true →
      next = .idle ∨ next = .requestAck ∨ next = .awaitAck) :
    Held { session with stop := next } := by
  exact {
    freed := by
      intro freed
      rw [show ({ session with stop := next } : Session).live = session.live
        from rfl, live] at freed
      cases freed
    reached := reached
    noAck := held.noAck
    owed := held.owed
    marked := held.marked }

end Held

/-! ### The steps -/

section Steps

variable {session : Session} (held : Held session)

include held

theorem held_begin (event : Event)
    (begins : (∃ call, event = .wait call) ∨
      ∃ call result readable, event = .connectAck call result readable) :
    Held (session.step link event) := by
  rcases begins with ⟨call, isWait⟩ | ⟨call, result, readable, isAck⟩
  · rw [isWait]
    unfold step
    dsimp only
    split
    · rename_i enabled
      refine held.begin_ enabled.2 call enabled.1 _ ?_
      intro task
      cases task <;> rfl
    · exact held
  · rw [isAck]
    unfold step
    dsimp only
    split
    · rename_i enabled
      refine held.begin_ ?_ call enabled.1 _ fun _ => rfl
      have admitted := enabled.2
      unfold admits at admitted
      cases link with
      | smartConfig => exact (Bool.and_eq_true_iff.mp admitted).1
      | airkiss =>
          exact (Bool.and_eq_true_iff.mp (Bool.and_eq_true_iff.mp admitted).1).1
    · exact held

theorem held_openSta (call : Nat) :
    Held (session.step link (.openSta call)) := by
  unfold step
  dsimp only
  split
  · rename_i here
    apply held.move (held.live_of_call here)
    · intro noPriv pc _
      cases held.noAck noPriv call _ here
    · intro task owed
      obtain ⟨noAp, _, pc, found, looks⟩ := held.owed task call owed
      rw [here] at found
      cases found
      refine ⟨.connecting .before, rfl, ?_⟩
      cases task with
      | waiting => cases looks
      | connectAp => rfl
      | ackRun => rfl
    · intro task pc _ isNext isInside
      cases isNext
      cases task <;> cases isInside
  · exact held

theorem held_staSetFails (call : Nat) :
    Held (session.step link (.staSetFails call)) := by
  unfold step
  dsimp only
  split
  · rename_i here
    have fewer := held.read
      (fun task other =>
        if task = .connectAp ∧ other = call then false
        else session.owed task other)
      (by
        intro task other owed
        split at owed
        · cases owed
        · exact owed)
    refine fewer.move (held.live_of_call here) call _ ?_ ?_ ?_
    · intro noPriv pc _
      cases held.noAck noPriv call _ here
    · intro task owed
      refine ⟨.acking .before, rfl, ?_⟩
      obtain ⟨noAp, _, pc, found, looks⟩ := fewer.owed task call owed
      change session.calls call = some pc at found
      rw [here] at found
      cases found
      cases task with
      | waiting => cases looks
      | connectAp => exact absurd rfl noAp
      | ackRun => rfl
    · intro task pc _ isNext isInside
      cases isNext
      cases task <;> cases isInside
  · exact held

theorem held_run (call : Nat) : Held (session.step link (.run call)) := by
  unfold step
  dsimp only
  split
  · rename_i pc task found
    obtain ⟨here, inTask⟩ := taskOf_eq_some found
    have marked := held.putBits task { session.bits task with run := true }
      (fun other owed => (held.owed task other owed).2.1) (fun _ _ _ _ _ => rfl)
    refine marked.move (held.live_of_call here) call _ ?_ ?_ ?_
    · intro noPriv next isNext
      cases isNext
      rw [CallPc.isAck_at_]
      exact held.noAck noPriv call pc here
    · intro other owed
      obtain ⟨_, _, same, stays, looks⟩ := held.owed other call owed
      rw [here] at stays
      cases stays
      exact ⟨pc.at_ .looping, rfl, CallPc.looksAt_looping inTask looks⟩
    · intro other next _ isNext isInside
      cases isNext
      rw [CallPc.inside_at_ inTask isInside]
      change (Function.update session.bits task _ task).run = true
      rw [Function.update_self]
  · exact held

theorem held_test (call : Nat) (goesOn : Bool) :
    Held (session.step link (.test call goesOn)) := by
  unfold step
  dsimp only
  split
  · rename_i pc task found
    obtain ⟨here, inTask⟩ := taskOf_eq_some found
    have fewer := held.read
      (fun other caller =>
        if other = task ∧ caller = call then false
        else session.owed other caller)
      (by
        intro other caller owed
        split at owed
        · cases owed
        · exact owed)
    refine fewer.move (held.live_of_call here) call _ ?_ ?_ ?_
    · intro noPriv next isNext
      cases isNext
      rw [CallPc.isAck_at_]
      exact held.noAck noPriv call pc here
    · intro other owed
      refine ⟨_, rfl, ?_⟩
      obtain ⟨_, _, same, stays, looks⟩ := fewer.owed other call owed
      change session.calls call = some same at stays
      rw [here] at stays
      cases stays
      have different : other ≠ task := by
        intro isTask
        simp [isTask] at owed
      exact CallPc.looksAt_other inTask different _ looks
    · intro other next noAp isNext isInside
      cases isNext
      rw [CallPc.inside_at_ inTask isInside] at noAp ⊢
      exact held.marked task call pc noAp here
        (decide_eq_true (Or.inl inTask))
  · exact held

theorem held_clear (call : Nat) (orderly : session.Orderly (.clear call)) :
    Held (session.step link (.clear call)) := by
  unfold step
  dsimp only
  split
  · rename_i pc task found
    obtain ⟨here, inTask⟩ := taskOf_eq_some found
    have nobody : ∀ other, session.owed task other = true → False := by
      intro other owed
      obtain ⟨noAp, stop, otherPc, there, looks⟩ := held.owed task other owed
      by_cases same : other = call
      · rw [same, here] at there
        cases there
        unfold CallPc.looksAt at looks
        rw [Bool.and_eq_true_iff] at looks
        exact of_decide_eq_true looks.2 inTask
      · have quiet := (orderly pc task found noAp other otherPc same there).2
          stop
        rw [quiet] at looks
        cases looks
    have moved := held.move (held.live_of_call here) call pc.behind
      (by
        intro noPriv next isNext
        have ack := held.noAck noPriv call pc here
        rw [(CallPc.isAck_of_behind isNext).1] at ack
        cases ack)
      (by
        intro other owed
        obtain ⟨_, _, same, stays, looks⟩ := held.owed other call owed
        rw [here] at stays
        cases stays
        have different : other ≠ task := by
          intro isTask
          exact nobody call (isTask ▸ owed)
        exact CallPc.looksAt_behind inTask different looks)
      (by
        intro other next _ isNext isInside
        rw [(CallPc.isAck_of_behind isNext).2 other] at isInside
        cases isInside)
    refine moved.putBits task { run := false, stop := false }
      (fun other owed => (nobody other owed).elim) ?_
    intro noAp other next there isInside
    change Function.update session.calls call pc.behind other = some next
      at there
    by_cases same : other = call
    · rw [same, Function.update_self] at there
      rw [(CallPc.isAck_of_behind there).2 task] at isInside
      cases isInside
    · rw [Function.update_of_ne same] at there
      rw [(orderly pc task found noAp other next same there).1] at isInside
      cases isInside
  · exact held

theorem none_of_clear (task : Task) (noAp : task ≠ .connectAp)
    (clear : (session.bits task).run = false) (ahead : session.NoneAhead task)
    (call : Nat) (pc : CallPc) (here : session.calls call = some pc) :
    pc.concerned task = false := by
  by_contra concerned
  rw [Bool.not_eq_false] at concerned
  have run := held.marked task call pc noAp here (ahead call pc here concerned)
  rw [clear] at run
  cases run

theorem held_stop (orderly : session.Orderly .stop) :
    Held session.stopStep := by
  unfold Orderly at orderly
  unfold stopStep
  cases here : session.stop with
  | idle =>
      have live := held.live_of_stop (here ▸ nofun)
      dsimp only
      split
      · exact held.goesOn .requestAck live fun _ => Or.inr (Or.inl rfl)
      · rename_i noPriv
        exact held.goesOn .done live fun priv => absurd priv noPriv
  | requestAck =>
      rw [here] at orderly
      exact held.request (held.live_of_stop (here ▸ nofun)) .ackRun .awaitAck
        orderly nofun (fun _ => rfl)
  | awaitAck =>
      have live := held.live_of_stop (here ▸ nofun)
      rw [here] at orderly
      dsimp only at orderly ⊢
      split
      · exact held
      · rename_i clear
        rw [Bool.not_eq_true] at clear
        have gone := none_of_clear held .ackRun nofun clear (orderly clear)
        exact {
          freed := fun freed => by
            change session.live = false at freed
            rw [live] at freed
            cases freed
          reached := nofun
          noAck := fun _ => gone
          owed := held.owed
          marked := held.marked }
  | requestAp =>
      have noPriv := held.unreached (here ▸ nofun) (here ▸ nofun)
        (here ▸ nofun)
      refine held.request (held.live_of_stop (here ▸ nofun)) .connectAp .awaitAp
        ?_ (fun _ => noPriv) (fun priv => ?_)
      · intro call pc there isLeft
        have none := held.noAck noPriv call pc there
        cases pc with
        | waiting _ => cases isLeft
        | opening => cases isLeft
        | connecting _ => cases none
        | acking _ => cases isLeft
      · rw [noPriv] at priv
        cases priv
  | awaitAp =>
      have noPriv := held.unreached (here ▸ nofun) (here ▸ nofun)
        (here ▸ nofun)
      dsimp only
      split
      · exact held
      · refine held.goesOn .resetAp (held.live_of_stop (here ▸ nofun)) ?_
        intro priv
        rw [noPriv] at priv
        cases priv
  | resetAp =>
      have noPriv := held.unreached (here ▸ nofun) (here ▸ nofun)
        (here ▸ nofun)
      have live := held.live_of_stop (here ▸ nofun)
      have cleared := held.putBits .connectAp { run := false, stop := false }
        (fun call owed => absurd rfl (held.owed .connectAp call owed).1)
        (fun noAp => absurd rfl noAp)
      refine cleared.goesOn .requestWait live ?_
      intro priv
      change session.priv = true at priv
      rw [noPriv] at priv
      cases priv
  | requestWait =>
      have noPriv := held.unreached (here ▸ nofun) (here ▸ nofun)
        (here ▸ nofun)
      rw [here] at orderly
      refine held.request (held.live_of_stop (here ▸ nofun)) .waiting .awaitWait
        orderly nofun ?_
      intro priv
      rw [noPriv] at priv
      cases priv
  | awaitWait =>
      have noPriv := held.unreached (here ▸ nofun) (here ▸ nofun)
        (here ▸ nofun)
      rw [here] at orderly
      dsimp only at orderly ⊢
      split
      · exact held
      · rename_i clear
        rw [Bool.not_eq_true] at clear
        have gone := none_of_clear held .waiting nofun clear (orderly clear)
        have none : ∀ call, session.calls call = none := by
          intro call
          cases there : session.calls call with
          | none => rfl
          | some pc =>
              have noWait := gone call pc there
              have noAck := held.noAck noPriv call pc there
              cases pc with
              | waiting _ => cases noWait
              | opening => cases noAck
              | connecting _ => cases noAck
              | acking _ => cases noAck
        exact {
          freed := fun _ => ⟨noPriv, rfl, none⟩
          reached := fun priv => by
            change session.priv = true at priv
            rw [noPriv] at priv
            cases priv
          noAck := held.noAck
          owed := held.owed
          marked := held.marked }
  | done => exact held

theorem held_step (event : Event) (orderly : session.Orderly event) :
    Held (session.step link event) := by
  cases event with
  | wait call => exact held_begin link held _ (Or.inl ⟨call, rfl⟩)
  | connectAck call result readable =>
      exact held_begin link held _ (Or.inr ⟨call, result, readable, rfl⟩)
  | openSta call => exact held_openSta link held call
  | staSetFails call => exact held_staSetFails link held call
  | run call => exact held_run link held call
  | test call goesOn => exact held_test link held call goesOn
  | clear call => exact held_clear link held call orderly
  | stop => exact held_stop held orderly

end Steps

theorem along_usedRightly {session : Session} (held : Held session)
    (events : List Event)
    (orderly : Along (step link) Orderly session events) :
    Along (step link) (UsedRightly link) session events := by
  induction events generalizing session with
  | nil => trivial
  | cons event rest ih =>
      have next := held_step link held event orderly.1
      refine ⟨⟨held.accesses link event, ?_⟩, ih next orderly.2⟩
      intro task call owed
      exact (next.owed task call owed).2.1

/-- In every run of stop with any number of waits and `connect_ack` calls, in
any order, whose steps are orderly, the session is used rightly. -/
theorem usedRightly_of_orderly (events : List Event)
    (orderly : Along (step link) Orderly start events) :
    Along (step link) (UsedRightly link) start events :=
  along_usedRightly link held_start events orderly

/-- Stop while a wait is in its loop. -/
def stopWaiting : List Event :=
  [.wait 0, .run 0, .test 0 true, .stop, .stop, .stop, .stop, .stop, .stop,
    .stop, .stop, .test 0 true, .clear 0, .stop]

theorem usedRightly_stopWaiting :
    Along (step .smartConfig) (UsedRightly .smartConfig) start stopWaiting := by
  apply usedRightly_of_orderly
  have alone : ∀ (session : Session) (task : Task),
      session.calls 0 = some (.waiting .looping) →
      (∀ call, session.calls (call + 1) = none) →
        session.NoneLeft task ∧ (task ≠ .connectAp → session.NoneAhead task) := by
    intro session task first others
    constructor
    · intro call pc here
      cases call with
      | zero =>
          rw [first] at here
          cases here
          cases task <;> nofun
      | succ call =>
          rw [others call] at here
          cases here
    · intro noAp call pc here concerned
      cases call with
      | zero =>
          rw [first] at here
          cases here
          cases task with
          | waiting => rfl
          | connectAp => cases concerned
          | ackRun => cases concerned
      | succ call =>
          rw [others call] at here
          cases here
  refine ⟨trivial, trivial, trivial, trivial, (alone _ _ rfl fun _ => rfl).1,
    fun _ => (alone _ _ rfl fun _ => rfl).2 nofun, trivial, trivial, trivial,
    (alone _ _ rfl fun _ => rfl).1, nofun, trivial, ?_, ?_, trivial⟩
  · rintro pc task found noAp (_ | call) other different there
    · exact absurd rfl different
    · cases there
  · rintro - (_ | call) pc there
    · cases there
    · cases there

/-- Stop while a `connect_ack` connects: its RUN bit of `ack_run` is not set
yet. -/
def stopConnecting : List Event :=
  [.connectAck 0 true true, .openSta 0, .run 0, .stop, .stop, .stop, .stop,
    .test 0 true, .clear 0, .stop, .stop, .stop, .stop, .run 0]

/-- Of two waits the first one to leave clears the bits of both. -/
def stopTwoWaits : List Event :=
  [.wait 0, .run 0, .wait 1, .run 1, .stop, .stop, .stop, .stop, .stop, .stop,
    .stop, .test 0 true, .clear 0, .stop, .test 1 true]

/-- A wait that has read the pointer and not set its bit. -/
def stopEarlyWait : List Event :=
  [.wait 0, .stop, .stop, .stop, .stop, .stop, .stop, .stop, .stop, .run 0]

theorem stop_freesUsed :
    ¬ Along (step .smartConfig) (UsedRightly .smartConfig) start
        stopConnecting ∧
      ¬ Along (step .airkiss) (UsedRightly .airkiss) start stopConnecting ∧
      ¬ Along (step .airkiss) (UsedRightly .airkiss) start stopTwoWaits ∧
      ¬ Along (step .airkiss) (UsedRightly .airkiss) start stopEarlyWait := by
  have used : ∀ link events last,
      accesses link (Runs.run (step link) start events) last = true →
      (Runs.run (step link) start events).live = false →
      ¬ Along (step link) (UsedRightly link) start (events ++ [last]) := by
    intro link events last access freed along
    have here := ((along_append _ _ _ _).mp along).2.1.1 access
    rw [freed] at here
    cases here
  exact ⟨used .smartConfig stopConnecting.dropLast (.run 0) rfl rfl,
    used .airkiss stopConnecting.dropLast (.run 0) rfl rfl,
    used .airkiss stopTwoWaits.dropLast (.test 1 true) rfl rfl,
    used .airkiss stopEarlyWait.dropLast (.run 0) rfl rfl⟩

end Session

end XR872.SmartLink
