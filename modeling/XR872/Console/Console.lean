/-
The console: command lines from the UART, taken by a task.

Two buffers go round between the receive interrupt, which fills them, and the
task, which executes what is in them. An interrupt strikes between any two
statements of the task outside of its critical sections, runs to its end, and
sees the bytes that have come in until then. The interrupt is enabled, and the
task waits, before `console_start` comes to its last statement.
-/

import XR872.Library.BitView
import XR872.Library.Memory
import XR872.Library.Run

namespace XR872.Console

open BitView
open Memories

def consoleCmdLineMaxLen : Nat := 256

def consoleCmdLineBufNum : Nat := 2

def consoleInvalidBufIdx : Nat := consoleCmdLineBufNum

/-- `CONSOLE_BUF`, in `g_console_buf`. -/
def consoleBuf (bufIdx : Nat) : Nat := bufIdx * consoleCmdLineMaxLen

def cr : Byte := 0x0D

def lf : Byte := 0x0A

/-- `isprint` of the C locale. -/
def isprint (data : Byte) : Bool := 0x20 ≤ data ∧ data ≤ 0x7E

/-- The string at an address, within as many bytes. -/
def cString (memory : Nat → Byte) (place : Nat) : Nat → List Byte
  | 0 => []
  | room + 1 =>
      if memory place = 0 then []
      else memory place :: cString memory (place + 1) room

/-- Where `console_rx_callback` is. -/
inductive RxCode where
  /-- At the label `restart`. -/
  | restart
  /-- At the head of the loop, with its locals `rx_buf` and `cnt`. -/
  | loop (rxBuf cnt : Nat)
  /-- At the head of the loop that throws away. -/
  | discard
deriving DecidableEq, Repr

/-- Where `console_task` is. -/
inductive TaskCode where
  | semaphoreWait
  | stateCheck
  /-- Before the first critical section. -/
  | getReady
  | cmdExec (cmdBufIdx : Nat)
  | setLast (cmdBufIdx : Nat)
  /-- Before the second critical section. -/
  | giveBack (cmdBufIdx : Nat)
  | exited
deriving DecidableEq, Repr

inductive ConsoleState where
  | stop
  | start
  | terminate
deriving DecidableEq, Repr

/-- `g_console`, `g_console_rx_data` (none when negative) and `g_console_buf`,
the receive FIFO of the UART, the two parties, and what has happened: the bytes
that came in, were read as part of a line or thrown away, the places the
interrupt wrote to, the latest first, the lines that became ready and those
that were executed. -/
structure ConsolePriv where
  state : ConsoleState
  freeBufBitmap : Nat → Bool
  readyBufBitmap : Nat → Bool
  lastCmdBufIdx : Nat
  rxBufIdx : Nat
  rxDataCnt : Nat
  cmdSem : Nat
  rxData : Option Byte
  memory : Nat → Byte
  fifo : List Byte
  rx : Option RxCode
  task : TaskCode
  arrived : List Byte
  taken : List Byte
  discarded : List Byte
  stored : List Nat
  accepted : List (List Byte)
  executed : List (List Byte)

/-- `console_get_valid_buf_idx` with `loop` turns to go. -/
def getValidFrom (bitmap : Nat → Bool) : Nat → Nat → (Nat → Bool) × Nat
  | 0, _ => (bitmap, consoleInvalidBufIdx)
  | loop + 1, idx =>
      let idx := (idx + 1) % consoleCmdLineBufNum
      if bitmap idx then (Function.update bitmap idx false, idx)
      else getValidFrom bitmap loop idx

def consoleGetValidBufIdx (bitmap : Nat → Bool) (lastIdx : Nat) :
    (Nat → Bool) × Nat :=
  getValidFrom bitmap consoleCmdLineBufNum lastIdx

/-- What `g_console_buf` has from the beginning of a buffer on. -/
def commandAt (memory : Nat → Byte) (bufIdx : Nat) : List Byte :=
  cString memory (consoleBuf bufIdx)
    ((consoleCmdLineBufNum - bufIdx) * consoleCmdLineMaxLen)

namespace ConsolePriv

/-- `OS_SemaphoreRelease`, with `OS_SEMAPHORE_MAX_COUNT`. -/
def semaphoreRelease (c : ConsolePriv) : ConsolePriv :=
  { c with cmdSem := if c.cmdSem < 0xFFFFFFFF then c.cmdSem + 1 else c.cmdSem }

def consoleRxCmdline (c : ConsolePriv) : ConsolePriv :=
  let next := consoleGetValidBufIdx c.freeBufBitmap c.rxBufIdx
  { c with
    readyBufBitmap := Function.update c.readyBufBitmap c.rxBufIdx true
    freeBufBitmap := next.1
    rxBufIdx := next.2
    rxDataCnt := 0
    accepted := c.accepted ++ [commandAt c.memory c.rxBufIdx] }.semaphoreRelease

/-- `*rx_buf = data` -/
def storeRx (c : ConsolePriv) (rxBuf : Nat) (data : Byte) : ConsolePriv :=
  { c with
    memory := store c.memory rxBuf [data]
    stored := rxBuf :: c.stored }

/-- The data that `console_is_rx_ready` finds, and what is left of them behind
`console_get_rx_data`. -/
def nextRx (c : ConsolePriv) : Option (Byte × Option Byte × List Byte) :=
  match c.rxData, c.fifo with
  | some data, fifo => some (data, none, fifo)
  | none, data :: fifo => some (data, none, fifo)
  | none, [] => none

/-- The label `retry`. -/
def retry (c : ConsolePriv) : ConsolePriv :=
  { c with
    rx := some (.loop (consoleBuf c.rxBufIdx + c.rxDataCnt) c.rxDataCnt) }

/-- Behind `\r` one more byte, if there is one: skipped if it is `\n`, saved
otherwise. -/
def lookBehindCr (c : ConsolePriv) : ConsolePriv :=
  match c.fifo with
  | [] => { c with rx := none }
  | next :: rest =>
      if next = lf then
        { c with fifo := rest, taken := c.taken ++ [next], rx := none }
      else { c with fifo := rest, rxData := some next, rx := some .restart }

/-- The end of a command line; the handler goes on only with a byte saved. -/
def endLine (c : ConsolePriv) (rxBuf : Nat) (data : Byte) : ConsolePriv :=
  let c := if data = cr then c.lookBehindCr else { c with rx := none }
  (c.storeRx rxBuf 0).consoleRxCmdline

/-- A turn of the loop in `console_rx_callback`, without `CONSOLE_ECHO_EN`. -/
def rxLoop (c : ConsolePriv) (rxBuf cnt : Nat) : ConsolePriv :=
  if cnt < consoleCmdLineMaxLen then
    match c.nextRx with
    | none => { c with rxDataCnt := cnt, rx := none }
    | some (data, rxData, fifo) =>
        let c := { c with
          rxData := rxData, fifo := fifo, taken := c.taken ++ [data] }
        if data = lf ∨ data = cr then c.endLine rxBuf data
        else if isprint data then
          { c.storeRx rxBuf data with rx := some (.loop (rxBuf + 1) (cnt + 1)) }
        else { c with rxDataCnt := 0 }.retry
  else { c with rxDataCnt := 0 }.retry

/-- The handler goes on. -/
def rxStep (c : ConsolePriv) : ConsolePriv :=
  match c.rx with
  | none => c
  | some .restart =>
      if c.rxBufIdx ≠ consoleInvalidBufIdx then c.retry
      else { c with rx := some .discard }
  | some (.loop rxBuf cnt) => c.rxLoop rxBuf cnt
  | some .discard =>
      match c.nextRx with
      | none => { c with rx := none }
      | some (data, rxData, fifo) =>
          { c with
            rxData := rxData, fifo := fifo
            discarded := c.discarded ++ [data] }

/-- A statement or a critical section of `console_task`; what is executed may
write to the buffer it is given. -/
def taskStep (c : ConsolePriv) (written : Nat → Byte) : ConsolePriv :=
  match c.task with
  | .semaphoreWait =>
      if c.cmdSem = 0 then c
      else { c with cmdSem := c.cmdSem - 1, task := .stateCheck }
  | .stateCheck =>
      { c with task := if c.state = .start then .getReady else .exited }
  | .getReady =>
      let cmd := consoleGetValidBufIdx c.readyBufBitmap c.lastCmdBufIdx
      { c with
        readyBufBitmap := cmd.1
        task :=
          if cmd.2 ≠ consoleInvalidBufIdx then .cmdExec cmd.2
          else .semaphoreWait }
  | .cmdExec cmdBufIdx =>
      { c with
        executed := c.executed ++ [commandAt c.memory cmdBufIdx]
        memory := fun place =>
          if place / consoleCmdLineMaxLen = cmdBufIdx then written place
          else c.memory place
        task := .setLast cmdBufIdx }
  | .setLast cmdBufIdx =>
      { c with lastCmdBufIdx := cmdBufIdx, task := .giveBack cmdBufIdx }
  | .giveBack cmdBufIdx =>
      if c.rxBufIdx = consoleInvalidBufIdx then
        { c with
          rxBufIdx := cmdBufIdx, rxDataCnt := 0, task := .semaphoreWait }
      else
        { c with
          freeBufBitmap := Function.update c.freeBufBitmap cmdBufIdx true
          task := .semaphoreWait }
  | .exited => c

end ConsolePriv

inductive ConsoleEvent where
  /-- A byte comes in. -/
  | arrive (data : Byte)
  /-- The interrupt strikes. -/
  | interrupt
  | handler
  /-- The task goes on; with what `cmd_exec` leaves in the buffer. -/
  | task (written : Nat → Byte)
  /-- `OS_SemaphoreWait` returns an error. -/
  | waitFails
  /-- `console->state = CONSOLE_STATE_START` in `console_start`. -/
  | started

/-- The task goes on only when no handler runs. -/
def consoleStep (c : ConsolePriv) : ConsoleEvent → ConsolePriv
  | .arrive data =>
      { c with fifo := c.fifo ++ [data], arrived := c.arrived ++ [data] }
  | .interrupt => if c.rx = none then { c with rx := some .restart } else c
  | .handler => c.rxStep
  | .task written => if c.rx = none then c.taskStep written else c
  | .waitFails => c
  | .started => { c with state := .start }

/-- `g_console_rx_data` at the start: zero when the console has never run, and
negative later. -/
def rxDataAtStart (again : Bool) : Option Byte := if again then none else some 0

/-- Behind `HAL_UART_EnableRxCallback` in `console_start`. -/
def consoleStart (again : Bool) (memory : Nat → Byte) : ConsolePriv where
  state := .stop
  freeBufBitmap := fun idx => idx = 1
  readyBufBitmap := fun _ => false
  lastCmdBufIdx := consoleCmdLineBufNum - 1
  rxBufIdx := 0
  rxDataCnt := 0
  cmdSem := 0
  rxData := rxDataAtStart again
  memory := memory
  fifo := []
  rx := none
  task := .semaphoreWait
  arrived := []
  taken := []
  discarded := []
  stored := []
  accepted := []
  executed := []

end XR872.Console
