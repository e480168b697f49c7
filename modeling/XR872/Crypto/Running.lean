/-
The flag that keeps the crypto engine from being suspended.

What the operations do to `ce_running` and `ce_lock`, statement by statement:
between any two statements other tasks run, and the power management may ask.
-/

import XR872.Crypto.Cipher
import XR872.Library.RecursiveMutex

namespace XR872.Crypto

open RecursiveMutexes

/-- What a task has still to run of the call it is in. -/
inductive CeCode where
  /-- Returned. -/
  | done
  /-- Returned, with a session that a `Finish` has to end. -/
  | opened
  /-- `ce_running = 1` -/
  | setRunning (next : CeCode)
  /-- `HAL_MutexLock(&ce_lock, CE_WAIT_TIME)` -/
  | mutexLock (locked failed : CeCode)
  /-- `HAL_MutexUnlock(&ce_lock)` -/
  | mutexUnlock (next : CeCode)
  /-- `ce_running = 0` -/
  | clearRunning (next : CeCode)
deriving DecidableEq, Repr

/-- AES, DES, 3DES in both directions, and `HAL_PRNG_Generate`. -/
inductive CeOperation where
  | cipher (method : CeMethod) (op : CeCryptoOp)
  | prngGenerate
deriving DecidableEq, Repr

/-- The seven operations leave through one exit, which clears the flag for
those too that were given no data or did not get the mutex. -/
def operationCode (_operation : CeOperation) (size : BitVec 32) : CeCode :=
  if size = 0 then .clearRunning .done
  else .setRunning (.mutexLock
    (.mutexUnlock (.clearRunning .done))
    (.clearRunning .done))

/-- `HAL_MD5_Init`, `HAL_SHA1_Init` and `HAL_SHA256_Init`. -/
def hashInitCode : CeCode := .setRunning (.mutexLock .opened .done)

/-- `HAL_CRC_Init1`, and what its caller goes on with. -/
def crcInit1Code (totalSize : BitVec 32) (locked failed : CeCode) : CeCode :=
  if totalSize = 0 then failed else .setRunning (.mutexLock locked failed)

/-- `HAL_CRC_Finish`, `HAL_MD5_Finish` and its kin. -/
def finishCode (next : CeCode) : CeCode := .mutexUnlock (.clearRunning next)

/-- `HAL_CRC_Init`: a session of one byte first, finished whether or not it
could be opened. -/
def crcInitCode (totalSize : BitVec 32) : CeCode :=
  let again := crcInit1Code totalSize .opened .done
  crcInit1Code 1 (finishCode again) (finishCode again)

def initCode : CeAlgorithm → CeCode
  | .crc totalSize => crcInitCode totalSize
  | .md5 => hashInitCode
  | .sha1 => hashInitCode
  | .sha256 => hashInitCode

inductive CeCall where
  | operation (operation : CeOperation) (size : BitVec 32)
  | init (algorithm : CeAlgorithm)
  | finish (algorithm : CeAlgorithm)
deriving DecidableEq, Repr

def CeCall.code : CeCall → CeCode
  | .operation called size => operationCode called size
  | .init algorithm => initCode algorithm
  | .finish _ => finishCode .done

/-- `ce_running`, `hal_ce_suspending`, `ce_lock`, and for each task what it is
in and how many sessions it has open. -/
structure CeState (τ : Type) where
  running : Bool
  suspending : Bool
  lock : RecursiveMutex τ
  code : τ → CeCode
  sessions : τ → Nat

namespace CeState

variable {τ : Type} [DecidableEq τ]

/-- After `HAL_CE_Init`. -/
def start : CeState τ :=
  { running := false
    suspending := false
    lock := none
    code := fun _ => .done
    sessions := fun _ => 0 }

def ceSuspend (state : CeState τ) : Int × CeState τ :=
  if state.running then (-1, state)
  else (0, { state with suspending := true })

/-- `HAL_CE_Init` sets nothing up anew while suspended. -/
def ceResume (state : CeState τ) : Int × CeState τ :=
  (0, { state with suspending := false })

def goTo (state : CeState τ) (task : τ) (next : CeCode) : CeState τ :=
  match next with
  | .opened =>
      { state with
        code := Function.update state.code task .done
        sessions :=
          Function.update state.sessions task (state.sessions task + 1) }
  | next => { state with code := Function.update state.code task next }

/-- A task that is in no call makes one; only an open session is finished. -/
def enter (state : CeState τ) (task : τ) (call : CeCall) : CeState τ :=
  if state.code task ≠ .done then state
  else
    match call with
    | .finish _ =>
        if state.sessions task = 0 then state
        else goTo { state with
          sessions :=
            Function.update state.sessions task (state.sessions task - 1) }
          task call.code
    | _ => state.goTo task call.code

/-- A task runs its next statement. One that finds the mutex held waits, until
it gets it or its time is out. -/
def proceed (state : CeState τ) (task : τ) (timesOut : Bool) : CeState τ :=
  match state.code task with
  | .done => state
  | .opened => state
  | .setRunning next => { state with running := true }.goTo task next
  | .mutexLock locked failed =>
      if state.lock.available task then
        { state with lock := state.lock.lock task }.goTo task locked
      else if timesOut then state.goTo task failed
      else state
  | .mutexUnlock next =>
      { state with lock := state.lock.unlock task }.goTo task next
  | .clearRunning next => { state with running := false }.goTo task next

end CeState

inductive CeEvent (τ : Type) where
  | call (task : τ) (call : CeCall)
  | proceed (task : τ) (timesOut : Bool)
  | suspend
  | resume
deriving DecidableEq, Repr

def CeState.step {τ : Type} [DecidableEq τ] (state : CeState τ) :
    CeEvent τ → CeState τ
  | .call task call => state.enter task call
  | .proceed task timesOut => state.proceed task timesOut
  | .suspend => state.ceSuspend.2
  | .resume => if state.suspending then state.ceResume.2 else state

end XR872.Crypto
