/-
Tasks that use one SPI port, in any order of their calls.

A session is between an open that was answered with `HAL_OK` and the close by the
same task.
-/

import XR872.Library.Run
import XR872.Spi.Port

namespace XR872.Spi

open RecursiveMutexes Runs

variable {τ : Type} [DecidableEq τ]

/-- Where a task stands. Of a refused transfer is kept whether there was a
session when it was made. -/
inductive SpiPhase where
  | idle
  | initCreate (gconfig : SpiGlobalConfig)
  | initFinish (gconfig : SpiGlobalConfig)
  | deinitDelete
  | deinitFinish
  | transferring
  | refused (duringSession : Bool)
deriving DecidableEq, Repr

/-- `session` is the task that opened the port and has not closed it since,
with what it asked for. -/
structure SpiSystem (τ : Type) where
  port : SpiHandler τ
  phase : τ → SpiPhase
  session : Option (τ × SpiConfig)

inductive SpiEvent (τ : Type) where
  | initCheck (task : τ) (gconfig : SpiGlobalConfig)
  | initCreate (task : τ) (mutex semaphore : Bool)
  | initFinish (task : τ)
  | deinitCheck (task : τ)
  | deinitDelete (task : τ)
  | deinitFinish (task : τ)
  | openPort (task : τ) (cs : Nat) (config : SpiConfig) (locked : Bool)
      (tx rx : Option Nat)
  | transferStart (task : τ) (kind : SpiTransfer)
  | transferEnd (task : τ)
  | closePort (task : τ)
deriving Repr

def spiStart (regs : SpiRegs) : SpiSystem τ :=
  { port :=
      { status := .reset
        lock := none
        mclk := 0
        config := spiConfigDefault
        txDmaChannel := none
        rxDmaChannel := none
        csIdle := true
        csUsing := 0
        regs := regs
        enabled := false
        clocked := false
        pins := none
        channels := [] }
    phase := fun _ => .idle
    session := none }

namespace SpiSystem

def goOn (s : SpiSystem τ) (task : τ) (phase : SpiPhase)
    (port : SpiHandler τ) : SpiSystem τ :=
  { s with port := port, phase := Function.update s.phase task phase }

/-- A task opened the port, or tried to. -/
def opened (s : SpiSystem τ) (task : τ) (config : SpiConfig)
    (answer : HalStatus × SpiHandler τ) : SpiSystem τ :=
  { s with
    port := answer.2
    session := if answer.1 = .ok then some (task, config) else s.session }

def closed (s : SpiSystem τ) (task : τ) (answer : HalStatus × SpiHandler τ) :
    SpiSystem τ :=
  { s with
    port := answer.2
    session :=
      if answer.1 = .ok ∧ s.session.any (fun opener => opener.1 = task)
      then none else s.session }

/-- What the task is answered, if the call is over, and what is then. -/
def spiCall (board : SpiBoard) (s : SpiSystem τ) :
    SpiEvent τ → Option HalStatus × SpiSystem τ
  | .initCheck task gconfig =>
      if s.phase task ≠ .idle then (none, s)
      else if s.port.status ≠ .reset then (some .error, s)
      else (none, s.goOn task (.initCreate gconfig) s.port)
  | .initCreate task mutex semaphore =>
      match s.phase task with
      | .initCreate gconfig =>
          let created := s.port.halSpiInitCreate mutex semaphore
          if created.1 = .ok then
            (none, s.goOn task (.initFinish gconfig) created.2)
          else (some created.1, s.goOn task .idle created.2)
      | _ => (none, s)
  | .initFinish task =>
      match s.phase task with
      | .initFinish gconfig =>
          let finished := s.port.halSpiInitFinish board gconfig
          (some finished.1, s.goOn task .idle finished.2)
      | _ => (none, s)
  | .deinitCheck task =>
      if s.phase task ≠ .idle then (none, s)
      else if s.port.status ≠ .ready then (some .error, s)
      else (none, s.goOn task .deinitDelete s.port)
  | .deinitDelete task =>
      if s.phase task = .deinitDelete then
        (none, s.goOn task .deinitFinish s.port.halSpiDeinitDelete)
      else (none, s)
  | .deinitFinish task =>
      if s.phase task = .deinitFinish then
        (some .ok, s.goOn task .idle s.port.halSpiDeinitFinish)
      else (none, s)
  | .openPort task cs config locked tx rx =>
      if s.phase task = .idle ∧
          (locked = true → s.port.lockable task = true) then
        let opened := s.port.halSpiOpen task cs config locked tx rx
        (some opened.1, s.opened task config opened)
      else (none, s)
  | .transferStart task kind =>
      if s.phase task = .idle then
        let started := s.port.halSpiTransferStart kind
        (none, s.goOn task
          (if started.1 then .transferring
            else .refused s.session.isSome) started.2)
      else (none, s)
  | .transferEnd task =>
      match s.phase task with
      | .transferring =>
          (some .ok, s.goOn task .idle s.port.halSpiTransferEnd)
      | .refused _ =>
          (some .invalid, s.goOn task .idle s.port.halSpiTransferEnd)
      | _ => (none, s)
  | .closePort task =>
      if s.phase task = .idle then
        let closed := s.port.halSpiClose task
        (some closed.1, s.closed task closed)
      else (none, s)

def spiStep (board : SpiBoard) (s : SpiSystem τ) (event : SpiEvent τ) :
    SpiSystem τ :=
  (s.spiCall board event).2

/-! ### The promise -/

/-- The port is occupied exactly if the task with the session holds the lock,
and the registers hold what it asked for. -/
structure Agrees (s : SpiSystem τ) : Prop where
  occupied : s.port.status.occupied = true ↔
    ∃ task config, s.session = some (task, config) ∧ s.port.HeldBy task
  hold : ∀ task config, s.session = some (task, config) →
    s.port.regs.Hold s.port.mclk config

def Kept (s : SpiSystem τ) (answer : HalStatus × SpiHandler τ) : Prop :=
  ¬ (s.port.status.occupied = false ∧ answer.2.status.occupied = true) →
    answer.1 ≠ .ok ∧ answer.2.status = s.port.status ∧
      answer.2.lock = s.port.lock ∧ answer.2.channels = s.port.channels ∧
      answer.2.config = s.port.config

/-- What a call that does not obtain the port, or that is made without a
session, is answered, and what it leaves. -/
def Answers (board : SpiBoard) (s : SpiSystem τ) (event : SpiEvent τ) : Prop :=
  let answer := (s.spiCall board event).1
  let next := s.spiStep board event
  match event with
  | .openPort .. => ∀ status, answer = some status → s.Kept (status, next.port)
  | .transferStart task _ =>
      s.session = none → s.phase task = .idle →
        next.phase task = .refused false ∧ next.port = s.port
  | .transferEnd task =>
      s.phase task = .refused false →
        answer = some .invalid ∧ next.port = s.port
  | .closePort _ =>
      s.session = none → answer ≠ some .ok ∧ next.port = s.port
  | _ => True

def Promised (board : SpiBoard) (s : SpiSystem τ) (event : SpiEvent τ) : Prop :=
  (s.spiStep board event).Agrees ∧ s.Answers board event

/-! ### When it is kept -/

/-- What goes on when nothing is wrong: no initialization or deinitialization
ends in a session; a port that is ready is opened with channels for DMA and a
configuration that can be set; a transfer ends in a session, a refused one only
over `BUSY`; the task with the session closes. -/
def Clean (s : SpiSystem τ) : SpiEvent τ → Prop
  | .initFinish task =>
      match s.phase task with
      | .initFinish _ => s.port.status.occupied = false
      | _ => True
  | .deinitDelete task =>
      s.phase task = .deinitDelete → s.port.status.occupied = false
  | .deinitFinish task =>
      s.phase task = .deinitFinish → s.port.status.occupied = false
  | .openPort task _ config locked tx rx =>
      s.phase task = .idle → locked = true → s.port.lockable task = true →
        s.port.status = .ready →
          SpiHandler.Granted config tx rx ∧ s.port.Settable config
  | .transferEnd task =>
      match s.phase task with
      | .transferring => s.port.status.occupied = true
      | .refused true => s.port.status.occupied = true
      | .refused false => s.port.status = .busy
      | _ => True
  | .closePort task =>
      s.phase task = .idle → s.port.status = .busy →
        s.session.any (fun opener => opener.1 = task) = true
  | _ => True

end SpiSystem

end XR872.Spi
