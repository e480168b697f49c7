/-
Connecting to the access point of the assistant, and stopping it.

Calls of `__sc_assistant_connect_ap` and `__sc_assistant_stop_connect_ap` share
the byte `stop_connect_ap`, which both parties set bits of and reset as a whole.
A step of a call goes from one access to the byte, the interface or the clock to
the next. The clock and the interface change between any two steps.
-/

import XR872.Library.MachineInt
import XR872.Library.Run

namespace XR872.SmartLink

open Runs

section Ticks

variable (hz : Nat)

def osTick : Nat := 1000000 / hz

def osTicksToMSecs (t : Nat) : Nat := t / (1000 / osTick hz)

def osGetTicks (now : Nat) : BitVec 32 := BitVec.ofNat 32 now

def osTimeBeforeEqual (a b : BitVec 32) : Bool := 0 ≤ (b - a).toInt

end Ticks

/-- `SCA_CONNECTING_AP` and `SCA_STOP_CONNECTING_AP` of `stop_connect_ap`. -/
structure StopConnectAp where
  connecting : Bool
  stopConnecting : Bool
deriving DecidableEq, Repr

/-- Which part of its condition has ended the waiting loop. -/
inductive WaitEnd where
  | stop
  | link
  | deadline
deriving DecidableEq, Repr

/-- Where a call of connect is: before `wlan_sta_set`, in front of one of the
parts of the loop's condition, in front of the reset or of the verdict. A test
keeps the time it was begun at and how many stops had been requested then. -/
inductive ConnectPc where
  | preparing
  | testStop
  | testLink (begun requests : Nat)
  | testTicks (begun requests : Nat)
  | resetting (by_ : WaitEnd)
  | verdict (by_ : WaitEnd)
deriving DecidableEq, Repr

structure ConnectCall where
  timeoutMs : BitVec 32
  nif : Bool
  timeout : BitVec 32
  pc : ConnectPc
  /-- The time of the call. -/
  entered : Nat
  /-- How many calls of connect, and requests to stop, had been made by then. -/
  number : Nat
  requests : Nat
deriving DecidableEq, Repr

inductive StopCallPc where
  | polling
  | resetting
deriving DecidableEq, Repr

structure StopCall where
  pc : StopCallPc
  /-- How many calls of connect had been made when it was called. -/
  number : Nat
deriving DecidableEq, Repr

inductive AssistantThread where
  | idle
  | connect (call : ConnectCall)
  | stop (call : StopCall)
deriving DecidableEq, Repr

structure Assistant (ι : Type) where
  now : Nat
  up : Bool
  linkUp : Bool
  stopConnectAp : StopConnectAp
  threads : ι → AssistantThread
  number : Nat
  requests : Nat

inductive AssistantEvent (ι : Type) where
  | tick
  | interface (up linkUp : Bool)
  | callConnect (thread : ι) (timeoutMs : BitVec 32) (nif : Bool)
  | callStop (thread : ι)
  /-- `staSet` is whether `wlan_sta_set` succeeds, if it is called. -/
  | step (thread : ι) (staSet : Bool)
deriving DecidableEq, Repr

section Steps

variable {ι : Type} [DecidableEq ι] (hz : Nat)

def Assistant.put (state : Assistant ι) (thread : ι) (next : AssistantThread) :
    Assistant ι :=
  { state with threads := Function.update state.threads thread next }

def Assistant.reset (state : Assistant ι) : Assistant ι :=
  { state with
    stopConnectAp := { connecting := false, stopConnecting := false } }

def ConnectCall.goto (call : ConnectCall) (pc : ConnectPc) : AssistantThread :=
  .connect { call with pc := pc }

/-- The comparison that the loop and the verdict make. -/
def ConnectCall.inTime (call : ConnectCall) (now : Nat) : Bool :=
  osTimeBeforeEqual (osGetTicks now) call.timeout

/-- What the call returns after its loop. -/
def ConnectCall.result (call : ConnectCall) (now : Nat) : Int :=
  if call.inTime now then 0 else -1

def connectStep (state : Assistant ι) (thread : ι) (call : ConnectCall)
    (staSet : Bool) : Assistant ι :=
  match call.pc with
  | .preparing =>
      if staSet then
        { state.put thread (call.goto .testStop) with
          stopConnectAp := { state.stopConnectAp with connecting := true } }
      else state.put thread .idle
  | .testStop =>
      if state.stopConnectAp.stopConnecting then
        state.put thread (call.goto (.resetting .stop))
      else state.put thread (call.goto (.testLink state.now state.requests))
  | .testLink begun requests =>
      if call.nif && state.up && state.linkUp then
        state.put thread (call.goto (.resetting .link))
      else state.put thread (call.goto (.testTicks begun requests))
  | .testTicks _ _ =>
      if call.inTime state.now then state.put thread (call.goto .testStop)
      else state.put thread (call.goto (.resetting .deadline))
  | .resetting by_ => (state.put thread (call.goto (.verdict by_))).reset
  | .verdict _ => state.put thread .idle

def stopStep (state : Assistant ι) (thread : ι) (call : StopCall) :
    Assistant ι :=
  match call.pc with
  | .polling =>
      if state.stopConnectAp.connecting then state
      else state.put thread (.stop { call with pc := .resetting })
  | .resetting => (state.put thread .idle).reset

def assistantStep (state : Assistant ι) (event : AssistantEvent ι) :
    Assistant ι :=
  match event with
  | .tick => { state with now := state.now + 1 }
  | .interface up linkUp => { state with up := up, linkUp := linkUp }
  | .callConnect thread timeoutMs nif =>
      match state.threads thread with
      | .idle =>
          { state.put thread (.connect
              { timeoutMs := timeoutMs
                nif := nif
                timeout := osGetTicks state.now +
                  BitVec.ofNat 32 (osTicksToMSecs hz timeoutMs.toNat)
                pc := .preparing
                entered := state.now
                number := state.number
                requests := state.requests }) with
            number := state.number + 1 }
      | _ => state
  | .callStop thread =>
      match state.threads thread with
      | .idle =>
          { state.put thread (.stop { pc := .polling, number := state.number }) with
            stopConnectAp := { state.stopConnectAp with stopConnecting := true }
            requests := state.requests + 1 }
      | _ => state
  | .step thread staSet =>
      match state.threads thread with
      | .idle => state
      | .connect call => connectStep state thread call staSet
      | .stop call => stopStep state thread call

def assistantStart (now : Nat) (up linkUp : Bool) : Assistant ι :=
  { now := now
    up := up
    linkUp := linkUp
    stopConnectAp := { connecting := false, stopConnecting := false }
    threads := fun _ => .idle
    number := 0
    requests := 0 }

end Steps

namespace ConnectPc

/-- CONNECTING has been set and not yet been reset. -/
def registered : ConnectPc → Bool
  | preparing => false
  | verdict _ => false
  | _ => true

/-- The call is in its loop or on the way to it. -/
def waits : ConnectPc → Bool
  | resetting _ => false
  | verdict _ => false
  | _ => true

end ConnectPc

section Promise

variable {ι : Type} [DecidableEq ι] (hz : Nat)

def VerdictTrue (state : Assistant ι) (event : AssistantEvent ι) : Prop :=
  ∀ thread staSet call by_, event = .step thread staSet →
    state.threads thread = .connect call → call.pc = .verdict by_ →
      (call.result state.now = 0 ↔ by_ = .link)

/-- An iteration begins within `timeout_ms` milliseconds of the call, when no
stop has been requested since then; and when stop returns, no call of connect
that it found is to wait, and the byte is 0. -/
def WaitsTrue (state : Assistant ι) (event : AssistantEvent ι) : Prop :=
  match event with
  | .step thread _ =>
      match state.threads thread with
      | .idle => True
      | .connect call =>
          match call.pc with
          | .testTicks begun requests =>
              call.inTime state.now = true →
                (begun - call.entered) * 1000 ≤ call.timeoutMs.toNat * hz ∧
                  requests = call.requests
          | _ => True
      | .stop call =>
          call.pc = .resetting →
            (assistantStep hz state event).stopConnectAp =
                { connecting := false, stopConnecting := false } ∧
              ∀ other connect, state.threads other = .connect connect →
                connect.number < call.number → connect.pc.waits = false
  | _ => True

def Truthful (state : Assistant ι) (event : AssistantEvent ι) : Prop :=
  VerdictTrue state event ∧ WaitsTrue hz state event

/-- The time that a call is to wait until, in ticks that do not wrap. -/
def ConnectCall.deadline (call : ConnectCall) : Nat :=
  call.entered + osTicksToMSecs hz call.timeoutMs.toNat

/-- A stop is not called while a call of connect is yet to set CONNECTING;
CONNECTING is not set while another call has it set or a stop is about to reset
the byte; and no test is made more than 2^31 ticks after the deadline. -/
def OrderlyCalls (state : Assistant ι) (event : AssistantEvent ι) : Prop :=
  match event with
  | .callStop thread =>
      state.threads thread = .idle →
        ∀ other connect, state.threads other = .connect connect →
          connect.pc ≠ .preparing
  | .step thread staSet =>
      match state.threads thread with
      | .connect call =>
          match call.pc with
          | .preparing => staSet = true →
              (∀ other connect, state.threads other = .connect connect →
                connect.pc.registered = false) ∧
              ∀ other stop, state.threads other = .stop stop →
                stop.pc = .polling
          | .testTicks _ _ => state.now ≤ call.deadline hz + 2 ^ 31
          | _ => True
      | _ => True
  | _ => True

def Awaited (deadline now : Nat) : Prop :=
  now ≤ deadline ∧ deadline < now + 2 ^ 31

/-- No stop is read while the deadline is awaited; a call whose loop the link
has ended comes to its verdict before the deadline, and any other call no more
than 2^31 ticks after it (with a timeout of 2^31 ticks or more, while the
deadline is still that far away). -/
def TimelyCalls (state : Assistant ι) (event : AssistantEvent ι) : Prop :=
  match event with
  | .step thread _ =>
      match state.threads thread with
      | .connect call =>
          match call.pc with
          | .testStop => state.stopConnectAp.stopConnecting = true →
              ¬ Awaited (call.deadline hz) state.now
          | .verdict .link => Awaited (call.deadline hz) state.now
          | .verdict _ => state.now ≤ call.deadline hz + 2 ^ 31 ∧
              (2 ^ 31 ≤ osTicksToMSecs hz call.timeoutMs.toNat →
                state.now + 2 ^ 31 ≤ call.deadline hz)
          | _ => True
      | _ => True
  | _ => True

end Promise

end XR872.SmartLink
