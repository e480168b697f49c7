/-
Who owns the payload of an event.

The sender gives it to the queue, the looper destroys it behind the notify. An
observer thread reads the event and the data from a slot of its observer when it
starts, and may be running long after the notify has ended.
-/

import XR872.Library.Run

namespace XR872.SysCtrl

open Runs

variable {ω : Type} [DecidableEq ω]

inductive ObserverType where
  | event
  | callback
  | thread
deriving DecidableEq, Repr

/-- `event_msg` of a send, and its number among all sends. -/
structure EventMsg where
  serial : Nat
  event : Nat
  data : Nat
  /-- `destruct` is not NULL. -/
  destruct : Bool
deriving DecidableEq, Repr

/-- A call of `trigger`, with the message whose payload it passes on. -/
structure Trigger where
  event : Nat
  data : Nat
  payload : Option Nat
deriving DecidableEq, Repr

inductive ThreadPhase where
  /-- `OS_ThreadIsValid` says no. -/
  | invalid
  /-- Created, before `wrap_thread` has read the slot. -/
  | created
  /-- In `run`. -/
  | running
  /-- Between `run` and `OS_ThreadDelete`. -/
  | returned
deriving DecidableEq, Repr

structure ThreadObserver where
  event : Nat
  arg : Nat
  thd : ThreadPhase
  /-- The trigger that created the thread. -/
  startedBy : Trigger
  /-- The event and the data that `run` was called with. -/
  calledWith : Nat × Nat

/-- The thread was created and has not come back from `run`. -/
def ThreadObserver.busy (observer : ThreadObserver) : Bool :=
  match observer.thd with
  | .created | .running => true
  | _ => false

/-- `trigger_thread`; the last argument is the answer of `OS_ThreadCreate`. -/
def triggerThread (observer : ThreadObserver) (trigger : Trigger)
    (created : Bool) : ThreadObserver :=
  let told := { observer with event := trigger.event, arg := trigger.data }
  if told.thd ≠ .invalid then told
  else if created then { told with thd := .created, startedBy := trigger }
  else told

/-- The queue, the looper and the threads. -/
structure Dispatcher (ω : Type) where
  queue : List EventMsg
  /-- `msg` of `main_looper` between `recv` and the end of its round. -/
  msg : Option EventMsg
  /-- The callbacks that run, the innermost first. -/
  callbacks : List Trigger
  threads : ω → ThreadObserver
  /-- How many sends there were. -/
  sends : Nat
  accepted : List EventMsg
  /-- The sends that returned -1. -/
  refused : List Nat
  /-- The messages whose round has ended. -/
  ended : List EventMsg
  /-- The payloads that were destroyed, by the numbers of their messages. -/
  destroyed : List Nat

inductive DispatchAct (ω : Type) where
  /-- `event_send` with what the queue answers. -/
  | send (event data : Nat) (destruct accepts : Bool)
  /-- `recv` returns the message at this place of the queue. -/
  | recv (place : Nat)
  /-- `notify` triggers the observer, with the message of the looper or with
  what a callback passes to a notify of its own. -/
  | trigger (obs : ω) (own : Option (Nat × Nat)) (created : Bool)
  /-- The innermost callback returns. -/
  | ret
  /-- `publisher_main` has returned; the round ends. -/
  | finish
  /-- The thread of the observer starts. -/
  | start (obs : ω)
  /-- `run` returns. -/
  | leave (obs : ω)
  /-- `OS_ThreadDelete`. -/
  | delete (obs : ω)

namespace Dispatcher

/-- No message yet, and observers as `thread_observer_create` makes them. -/
def create (ω : Type) : Dispatcher ω :=
  { queue := [], msg := none, callbacks := [],
    threads := fun _ =>
      { event := 0, arg := 0, thd := .invalid,
        startedBy := { event := 0, data := 0, payload := none },
        calledWith := (0, 0) }
    sends := 0, accepted := [], refused := [], ended := [], destroyed := [] }

variable (type : ω → ObserverType)

def send (dispatcher : Dispatcher ω) (event data : Nat)
    (destruct accepts : Bool) : Dispatcher ω :=
  let msg := { serial := dispatcher.sends, event, data, destruct }
  if accepts then
    { dispatcher with
      queue := dispatcher.queue ++ [msg]
      sends := dispatcher.sends + 1
      accepted := dispatcher.accepted ++ [msg] }
  else
    { dispatcher with
      sends := dispatcher.sends + 1
      refused := dispatcher.refused ++ [dispatcher.sends] }

def recv (dispatcher : Dispatcher ω) (place : Nat) : Dispatcher ω :=
  match dispatcher.msg, dispatcher.queue[place]? with
  | none, some msg =>
      { dispatcher with
        queue := dispatcher.queue.eraseIdx place
        msg := some msg }
  | _, _ => dispatcher

/-- What `notify` passes to a trigger: its own loop goes on while no callback
runs, and a notify inside of a callback only while one does. -/
def cause (dispatcher : Dispatcher ω) (own : Option (Nat × Nat)) :
    Option Trigger :=
  match own, dispatcher.callbacks with
  | none, [] => dispatcher.msg.map fun msg =>
      { event := msg.event, data := msg.data, payload := some msg.serial }
  | some (event, data), _ :: _ => some
      { event, data
        payload := (dispatcher.msg.filter fun msg => msg.data == data).map
          EventMsg.serial }
  | _, _ => none

def trigger (dispatcher : Dispatcher ω) (obs : ω) (cause : Trigger)
    (created : Bool) : Dispatcher ω :=
  match type obs with
  | .event => dispatcher
  | .callback =>
      { dispatcher with callbacks := cause :: dispatcher.callbacks }
  | .thread =>
      { dispatcher with
        threads := Function.update dispatcher.threads obs
          (triggerThread (dispatcher.threads obs) cause created) }

/-- The end of a round of `main_looper`. -/
def finish (dispatcher : Dispatcher ω) : Dispatcher ω :=
  match dispatcher.msg, dispatcher.callbacks with
  | some msg, [] =>
      { dispatcher with
        msg := none
        ended := dispatcher.ended ++ [msg]
        destroyed := if msg.destruct then dispatcher.destroyed ++ [msg.serial]
          else dispatcher.destroyed }
  | _, _ => dispatcher

/-- A step of the thread of an observer, from one phase to the next. -/
def threadStep (dispatcher : Dispatcher ω) (obs : ω) (phase : ThreadPhase)
    (change : ThreadObserver → ThreadObserver) : Dispatcher ω :=
  if (dispatcher.threads obs).thd = phase then
    { dispatcher with
      threads := Function.update dispatcher.threads obs
        (change (dispatcher.threads obs)) }
  else dispatcher

/-- `wrap_thread` calls `run` with what is in the slot. -/
def startThread (observer : ThreadObserver) : ThreadObserver :=
  { observer with
    thd := .running
    calledWith := (observer.event, observer.arg) }

def leaveThread (observer : ThreadObserver) : ThreadObserver :=
  { observer with thd := .returned }

def deleteThread (observer : ThreadObserver) : ThreadObserver :=
  { observer with thd := .invalid }

def turn (dispatcher : Dispatcher ω) : DispatchAct ω → Dispatcher ω
  | .send event data destruct accepts =>
      dispatcher.send event data destruct accepts
  | .recv place => dispatcher.recv place
  | .trigger obs own created =>
      match dispatcher.cause own with
      | none => dispatcher
      | some cause => dispatcher.trigger type obs cause created
  | .ret => { dispatcher with callbacks := dispatcher.callbacks.tail }
  | .finish => dispatcher.finish
  | .start obs => dispatcher.threadStep obs .created startThread
  | .leave obs => dispatcher.threadStep obs .running leaveThread
  | .delete obs => dispatcher.threadStep obs .returned deleteThread

end Dispatcher

/-! ### What is promised -/

/-- What is promised of every state. -/
structure Owned (dispatcher : Dispatcher ω) : Prop where
  /-- A message that was accepted waits, or is in the looper, or its round has
  ended. -/
  kept : ∀ msg ∈ dispatcher.accepted, msg ∈ dispatcher.queue ∨
    dispatcher.msg = some msg ∨ msg ∈ dispatcher.ended
  /-- Its payload is destroyed once, at the end of its round. -/
  once : ∀ msg ∈ dispatcher.accepted, dispatcher.destroyed.count msg.serial =
    if msg ∈ dispatcher.ended ∧ msg.destruct = true then 1 else 0
  /-- What the queue refused is not destroyed. -/
  refused : ∀ serial ∈ dispatcher.refused, serial ∉ dispatcher.destroyed
  /-- No callback runs with a payload that is destroyed. -/
  callbacks : ∀ trigger ∈ dispatcher.callbacks, ∀ serial ∈ trigger.payload,
    serial ∉ dispatcher.destroyed
  /-- No thread is busy with a payload that is destroyed. -/
  threads : ∀ obs, (dispatcher.threads obs).busy = true →
    ∀ serial ∈ (dispatcher.threads obs).startedBy.payload,
      serial ∉ dispatcher.destroyed
  /-- A thread finds in the slot what its trigger has put there. -/
  waiting : ∀ obs, (dispatcher.threads obs).thd = .created →
    (dispatcher.threads obs).event = (dispatcher.threads obs).startedBy.event ∧
      (dispatcher.threads obs).arg = (dispatcher.threads obs).startedBy.data
  called : ∀ obs, (dispatcher.threads obs).thd = .running →
    (dispatcher.threads obs).calledWith =
      ((dispatcher.threads obs).startedBy.event,
        (dispatcher.threads obs).startedBy.data)

/-- At the end of a round no thread is busy with the payload to destroy. -/
def EndsUnused (dispatcher : Dispatcher ω) : DispatchAct ω → Prop
  | .finish => ∀ msg ∈ dispatcher.msg, dispatcher.callbacks = [] →
      msg.destruct = true → ∀ obs, (dispatcher.threads obs).busy = true →
        (dispatcher.threads obs).startedBy.payload ≠ some msg.serial
  | _ => True

/-- No trigger changes the slot of a thread that has still to read it. -/
def LeavesSlot (type : ω → ObserverType) (dispatcher : Dispatcher ω) :
    DispatchAct ω → Prop
  | .trigger obs own _ => ∀ cause ∈ dispatcher.cause own,
      type obs = .thread → (dispatcher.threads obs).thd = .created →
        (dispatcher.threads obs).event = cause.event ∧
          (dispatcher.threads obs).arg = cause.data
  | _ => True

end XR872.SysCtrl
