/-
Sessions of the smart links.

`wlan_smart_config_stop` and `wlan_airkiss_stop` free the session that the
other calls have read from one pointer. Each activity has a RUN bit, set and
cleared by the calls, and a STOP bit, set by stop and cleared together with RUN.
The two links have the same code up to their names and a check for NULL. A step
goes from one suspension of the scheduler, sleep or call of `connect_ap` to the
next.
-/

import XR872.Library.Run

namespace XR872.SmartLink

open Runs

inductive Link where
  | smartConfig
  | airkiss
deriving DecidableEq, Repr

/-- `SC_TASK_RUN` and `SC_TASK_STOP`, or those of the other activities. -/
structure TaskBits where
  run : Bool
  stop : Bool
deriving DecidableEq, Repr

/-- The fields `waiting` and `ack_run` of a session, and `stop_connect_ap` of
the assistant. -/
inductive Task where
  | waiting
  | connectAp
  | ackRun
deriving DecidableEq, Repr

/-- Where a call is in an activity: in front of setting RUN, in front of a look
at STOP in the loop, or in front of clearing the bits. -/
inductive TaskPc where
  | before
  | looping
  | left
deriving DecidableEq, Repr

/-- Where a call that has the session is: a wait, or a `connect_ack` in front of
`open_sta`, in `connect_ap` or in the acknowledging. -/
inductive CallPc where
  | waiting (pc : TaskPc)
  | opening
  | connecting (pc : TaskPc)
  | acking (pc : TaskPc)
deriving DecidableEq, Repr

/-- Where stop is. -/
inductive StopPc where
  | idle
  | requestAck
  | awaitAck
  | requestAp
  | awaitAp
  | resetAp
  | requestWait
  | awaitWait
  | done
deriving DecidableEq, Repr

namespace CallPc

/-- The activity that a call is in. -/
def task : CallPc → Option (Task × TaskPc)
  | waiting pc => some (.waiting, pc)
  | opening => none
  | connecting pc => some (.connectAp, pc)
  | acking pc => some (.ackRun, pc)

/-- The call in another place of its activity. -/
def at_ : CallPc → TaskPc → CallPc
  | waiting _, pc => waiting pc
  | opening, _ => opening
  | connecting _, pc => connecting pc
  | acking _, pc => acking pc

/-- What follows the activity, if not the end of the call. -/
def behind : CallPc → Option CallPc
  | connecting _ => some (acking .before)
  | _ => none

/-- The call is in the activity or will come to it. -/
def concerned : Task → CallPc → Bool
  | .waiting, waiting _ => true
  | .connectAp, opening => true
  | .connectAp, connecting _ => true
  | .ackRun, opening => true
  | .ackRun, connecting _ => true
  | .ackRun, acking _ => true
  | _, _ => false

end CallPc

/-- A session, the calls that have it, and which of them have yet to read a
STOP that was meant for them. -/
structure Session where
  /-- `smartconfig_priv` or `airkiss_priv` is set. -/
  priv : Bool
  live : Bool
  bits : Task → TaskBits
  calls : Nat → Option CallPc
  stop : StopPc
  owed : Task → Nat → Bool

/-- A call, the next step of one or of stop. -/
inductive Event where
  | wait (call : Nat)
  /-- `result` is not `NULL`, and the result of the session can be read. -/
  | connectAck (call : Nat) (result readable : Bool)
  | openSta (call : Nat)
  /-- `wlan_sta_set` fails and `connect_ap` returns. -/
  | staSetFails (call : Nat)
  | run (call : Nat)
  /-- The loop goes on if it is not stopped. -/
  | test (call : Nat) (goesOn : Bool)
  | clear (call : Nat)
  | stop
deriving DecidableEq, Repr

namespace Session

def start : Session :=
  { priv := true
    live := true
    bits := fun _ => { run := false, stop := false }
    calls := fun _ => none
    stop := .idle
    owed := fun _ _ => false }

variable (link : Link) (session : Session)

def moveCall (call : Nat) (pc : Option CallPc) : Session :=
  { session with calls := Function.update session.calls call pc }

def putBits (task : Task) (bits : TaskBits) : Session :=
  { session with bits := Function.update session.bits task bits }

/-- `|= STOP`. -/
def request (task : Task) (next : StopPc) : Session :=
  { session.putBits task { session.bits task with stop := true } with
    owed := Function.update session.owed task fun call =>
      (session.calls call).any (CallPc.concerned task)
    stop := next }

def taskOf (call : Nat) : Option (CallPc × Task × TaskPc) :=
  (session.calls call).bind fun pc => pc.task.map fun found => (pc, found)

/-- `priv` and what it leads to let a `connect_ack` go on. -/
def admits (result readable : Bool) : Bool :=
  match link with
  | .smartConfig => session.priv && readable
  | .airkiss => session.priv && result && readable

def stopStep : Session :=
  match session.stop with
  | .idle =>
      if session.priv then { session with stop := .requestAck }
      else { session with stop := .done }
  | .requestAck => session.request .ackRun .awaitAck
  | .awaitAck =>
      if (session.bits .ackRun).run then session
      else { session with
        priv := false
        stop := .requestAp }
  | .requestAp => session.request .connectAp .awaitAp
  | .awaitAp =>
      if (session.bits .connectAp).run then session
      else { session with stop := .resetAp }
  | .resetAp =>
      { session.putBits .connectAp { run := false, stop := false } with
        stop := .requestWait }
  | .requestWait => session.request .waiting .awaitWait
  | .awaitWait =>
      if (session.bits .waiting).run then session
      else { session with
        live := false
        stop := .done }
  | .done => session

/-- One step; an event that does not come next for its call changes nothing. -/
def step : Event → Session
  | .wait call =>
      if session.calls call = none ∧ session.priv then
        session.moveCall call (some (.waiting .before))
      else session
  | .connectAck call result readable =>
      if session.calls call = none ∧ session.admits link result readable then
        session.moveCall call (some .opening)
      else session
  | .openSta call =>
      if session.calls call = some .opening then
        session.moveCall call (some (.connecting .before))
      else session
  | .staSetFails call =>
      if session.calls call = some (.connecting .before) then
        { session.moveCall call (some (.acking .before)) with
          owed := fun task other =>
            if task = .connectAp ∧ other = call then false
            else session.owed task other }
      else session
  | .run call =>
      match session.taskOf call with
      | some (pc, task, .before) =>
          (session.putBits task { session.bits task with run := true }).moveCall
            call (some (pc.at_ .looping))
      | _ => session
  | .test call goesOn =>
      match session.taskOf call with
      | some (pc, task, .looping) =>
          { session.moveCall call (some (pc.at_
              (if (session.bits task).stop || !goesOn then .left
               else .looping))) with
            owed := fun other caller =>
              if other = task ∧ caller = call then false
              else session.owed other caller }
      | _ => session
  | .clear call =>
      match session.taskOf call with
      | some (pc, task, .left) =>
          (session.putBits task { run := false, stop := false }).moveCall call
            pc.behind
      | _ => session
  | .stop => session.stopStep

/-- The step reads or writes the session. The activity of `connect_ap` has its
bits elsewhere. -/
def accesses : Event → Bool
  | .wait _ => false
  | .connectAck call result _ =>
      session.calls call = none ∧ session.priv ∧
        (link = .airkiss → result = true)
  | .openSta call => session.calls call = some .opening
  | .staSetFails _ => false
  | .run call =>
      (session.taskOf call).any fun found =>
        found.2.1 ≠ .connectAp ∧ found.2.2 = .before
  | .test call _ =>
      (session.taskOf call).any fun found =>
        found.2.1 ≠ .connectAp ∧ found.2.2 = .looping
  | .clear call =>
      (session.taskOf call).any fun found =>
        found.2.1 ≠ .connectAp ∧ found.2.2 = .left
  | .stop =>
      match session.stop with
      | .idle => session.priv
      | .requestAp => false
      | .awaitAp => false
      | .resetAp => false
      | .done => false
      | _ => true

end Session

end XR872.SmartLink
