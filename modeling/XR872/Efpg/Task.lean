/-
The task loop of the fuse programming session, `efpg_task` in `efpg/efpg.c`.

One turn is one pass of the loop: the frame arrives in the buffer that the
request names, its handler runs, and the loop goes on, starts over or stops.
What the task did is kept as a list of exchanges, the latest one first. Writing
past the end of a receive buffer has no defined continuation, so the session
ends there.
-/

import XR872.Efpg.Frame
import XR872.Library.Run

namespace XR872.Efpg

open BitView
open Buffers
open Chip.Efuse

inductive RecvBuf where
  | cmdFrame
  | extCmdFrame
  | dataFrame
deriving DecidableEq, Repr

def RecvBuf.size : RecvBuf → Nat
  | .cmdFrame => efpgCmdFrameLen
  | .extCmdFrame => efpgUserAreaExtLen
  | .dataFrame => efpgDataFrameLenMax

/-- The buffer chosen at `efpg_continue`. -/
def EfpgPriv.recvBuf (efpg : EfpgPriv) : RecvBuf :=
  if efpg.isCmd then
    match efpg.extCmd with
    | .ext => .extCmdFrame
    | .normal => .cmdFrame
  else .dataFrame

/-- The assignments at `efpg_reset`; the frame buffers keep their content. -/
def efpgReset (efpg : EfpgPriv) : EfpgPriv :=
  { efpg with
    isCmd := true
    extCmd := .normal
    exptLen := efpgCmdFrameLen
    recvLen := 0
    op := .num
    field := .num
    startBitAddr := 0
    bitLength := 0 }

/-- One frame and what came of it. -/
structure Exchange where
  recvBuf : RecvBuf
  /-- The size requested from `HAL_UART_Receive_IT`. -/
  exptLen : Nat
  received : List Byte
  calls : List Call
  state : EfpgState
  /-- `cmd_frame` after the frame arrived. -/
  cmdFrame : List Byte
  ackSent : Bool
deriving DecidableEq, Repr

inductive Phase where
  | running
  | stopped
  | overrun
deriving DecidableEq, Repr

structure Session where
  phase : Phase
  efpg : EfpgPriv
  dev : Device
  trace : List Exchange
deriving DecidableEq, Repr

/-- The session that `efpg_task` opens; its memory comes from `malloc`. -/
def Session.start (efpg : EfpgPriv) (dev : Device) : Session :=
  { phase := .running, efpg := efpgReset efpg, dev := dev, trace := [] }

/-- The received bytes in the buffer at the request; `none` past its end. -/
def EfpgPriv.arrive (efpg : EfpgPriv) (bytes : List Byte) : Option EfpgPriv :=
  match efpg.recvBuf with
  | .cmdFrame =>
      if within : 0 + bytes.length ≤ efpgCmdFrameLen then
        some { efpg with cmdFrame := efpg.cmdFrame.store 0 bytes within }
      else none
  | .extCmdFrame =>
      if within : 0 + bytes.length ≤ efpgUserAreaExtLen then
        some { efpg with extCmdFrame := efpg.extCmdFrame.store 0 bytes within }
      else none
  | .dataFrame =>
      if within : 0 + bytes.length ≤ efpgDataFrameLenMax then
        some { efpg with dataFrame := efpg.dataFrame.store 0 bytes within }
      else none

def efpgProcess (sha256 : Sha256) (arch : ChipArchVer) (turn : Turn)
    (efpg : EfpgPriv) (dev : Device) : Processed :=
  if efpg.isCmd then efpgCmdFrameProcess sha256 arch turn efpg dev
  else efpgDataFrameProcess sha256 arch turn efpg dev

/-- The `switch` on the handler's state. -/
def Processed.goto (p : Processed) : Phase × EfpgPriv :=
  match p.state with
  | .cont => (.running, p.efpg)
  | .reset => (.running, efpgReset p.efpg)
  | .stop => (.stopped, p.efpg)

/-- The turn of a running session in which `bytes` arrive, none more than were
requested. -/
def efpgReceive (sha256 : Sha256) (arch : ChipArchVer) (turn : Turn)
    (session : Session) (bytes : List Byte) : Session :=
  let efpg := session.efpg
  let exchange : Exchange :=
    { recvBuf := efpg.recvBuf
      exptLen := efpg.exptLen
      received := bytes
      calls := []
      state := .reset
      cmdFrame := efpg.cmdFrame.cells
      ackSent := turn.ackSent }
  match efpg.arrive bytes with
  | none =>
      { session with phase := .overrun, trace := exchange :: session.trace }
  | some efpg =>
      let exchange := { exchange with cmdFrame := efpg.cmdFrame.cells }
      if bytes.length ≠ efpg.exptLen then
        { session with
          efpg := efpgReset efpg
          trace := exchange :: session.trace }
      else
        let p := efpgProcess sha256 arch turn
          { efpg with recvLen := bytes.length } session.dev
        { phase := p.goto.1
          efpg := p.goto.2
          dev := p.dev
          trace :=
            { exchange with calls := p.calls, state := p.state } ::
              session.trace }

/-- One pass of the loop. A call that returns 0 is repeated as it was. -/
def efpgTurn (sha256 : Sha256) (arch : ChipArchVer) (session : Session)
    (turn : Turn) : Session :=
  match session.phase, turn.received with
  | .running, none => { session with phase := .stopped }
  | .running, some bytes =>
      let bytes := bytes.take session.efpg.exptLen
      if bytes = [] then session
      else efpgReceive sha256 arch turn session bytes
  | _, _ => session

end XR872.Efpg
