/-
The frames of the fuse programming session, from `efpg/efpg_frame.c`.

A handler returns the next state of the task together with the calls it made
that leave the module. The driver and the library calls that may fail are
answered by the turn. SHA-256 of a whole message is a parameter.
-/

import XR872.Efpg.Digest
import XR872.Efpg.Field

namespace XR872.Efpg

open BitView
open Buffers
open Chip.Efuse

/-! ### Session state -/

def efpgCmdFrameLen : Nat := 8

def efpgMsgDgstLen : Nat := 32

def efpgDataFrameLenMax : Nat := 76 + efpgMsgDgstLen

/-- `EFPG_UAER_AREA_EXT_LEN`. -/
def efpgUserAreaExtLen : Nat := 8 + (2 + 2) + 1

/-- `EFPG_NORMAL_CMD` and `EFPG_EXT_CMD`. -/
inductive EfpgCmd where
  | normal
  | ext
deriving DecidableEq, Repr

inductive EfpgOp where
  | read
  | write
  | exit
  | num
deriving DecidableEq, Repr

inductive EfpgState where
  | cont
  | reset
  | stop
deriving DecidableEq, Repr

/-- `efpg_priv_t`. The 16-bit fields are computed from frames and never wrap. -/
structure EfpgPriv where
  key : List Byte
  isCmd : Bool
  extCmd : EfpgCmd
  cmdFrame : Buffer Byte efpgCmdFrameLen
  dataFrame : Buffer Byte efpgDataFrameLenMax
  extCmdFrame : Buffer Byte efpgUserAreaExtLen
  exptLen : Nat
  recvLen : Nat
  protocolVersion : Nat
  startBitAddr : Nat
  bitLength : Nat
  op : EfpgOp
  field : EfpgField
deriving DecidableEq, Repr

/-- A write that reached `efpg_write_field`. -/
structure FieldWrite where
  field : EfpgField
  data : List Byte
  startBitAddr : Nat
  bitLength : Nat
deriving DecidableEq, Repr

inductive Call where
  | sendAck (status : EfpgAck)
  /-- `efpg_read_field` into a frame with room for `room` bytes. -/
  | readField (field : EfpgField) (startBitAddr bitLength : Nat)
      (stored : List Byte) (room : Nat)
  | transmit (frame : List Byte)
  | writeField (write : FieldWrite)
  | stopProcess
deriving DecidableEq, Repr

/-- What the driver and the libraries answer during one turn of the task. No
handler sends more than one acknowledge. -/
structure Turn where
  /-- The bytes that arrive; `none` when the UART fails. -/
  received : Option (List Byte)
  /-- `efpg_send_ack` returns 0. -/
  ackSent : Bool
  /-- `efpg_malloc` finds room for a read frame. -/
  allocated : Bool
  /-- `HAL_SHA256_Init` and `HAL_SHA256_Finish` succeed. -/
  hashed : Bool
deriving DecidableEq, Repr

/-- A handler's result. -/
structure Processed where
  state : EfpgState
  efpg : EfpgPriv
  dev : Device
  calls : List Call
deriving DecidableEq, Repr

abbrev Sha256 : Type := List Byte → BitVec 256

/-! ### Checksum and digest -/

def efpgChecksum8 (data : List Byte) : Byte :=
  data.foldl (fun cs byte => cs + byte) 0

/-- `efpg_check_msg_dgst`; true stands for the result 0. -/
def efpgCheckMsgDgst (sha256 : Sha256) (turn : Turn) (efpg : EfpgPriv) : Bool :=
  let frame := efpg.dataFrame.cells.take efpg.recvLen
  let payload := frame.take (efpg.recvLen - efpgMsgDgstLen)
  let msgDgst := frame.drop (efpg.recvLen - efpgMsgDgstLen)
  match hashedMessage [efpg.cmdFrame.cells, payload, efpg.key] with
  | none => false
  | some message =>
      turn.hashed && decide (msgDgst = toBytes (sha256 message))

/-! ### Command frames -/

/-- A little-endian `uint16_t`. -/
def u16At (frame : List Byte) (offset : Nat) : Nat :=
  (frame.getD offset 0).toNat + 256 * (frame.getD (offset + 1) 0).toNat

/-- The `EFPG_OP_CODE_*` values. -/
def opOfCode (code : Nat) : Option EfpgOp :=
  if code = 0x0FF0 then some .read
  else if code = 0xF00F then some .write
  else if code = 0xFFFF then some .exit
  else none

def efpgTypeUserArea : Nat := 0xFA05

/-- The `EFPG_TYPE_*` values with a frame of fixed length, and that length. -/
def fixedType (type : Nat) : Option (EfpgField × Nat) :=
  if type = 0xFF00 then some (.hosc, 1 + efpgMsgDgstLen)
  else if type = 0xFE01 then some (.boot, 32 + efpgMsgDgstLen)
  else if type = 0xFB04 then some (.mac, 6 + efpgMsgDgstLen)
  else if type = 0xF906 then some (.chipid, 16 + efpgMsgDgstLen)
  else none

/-- The frame that the command part of the task works on. -/
def EfpgPriv.frame (efpg : EfpgPriv) : List Byte :=
  match efpg.extCmd with
  | .ext => efpg.extCmdFrame.cells
  | .normal => efpg.cmdFrame.cells

/-- The length comparison that ends `efpg_parse_cmd`. -/
def efpgParseLen (efpg : EfpgPriv) (len : Nat) : Bool × EfpgPriv :=
  (decide (len = efpg.exptLen), efpg)

/-- The frame length for a user area access of `bitLength` bits. -/
def userAreaFrameLen (bitLength : Nat) : Nat :=
  bitLength / 8 + efpgMsgDgstLen + if bitLength % 8 = 0 then 0 else 1

/-- The `switch` on `type` in `efpg_parse_cmd`. -/
def efpgParseType (efpg : EfpgPriv) (op : EfpgOp) : Bool × EfpgPriv :=
  let p := efpg.frame
  let type := u16At p 2
  let len := u16At p 4
  match fixedType type with
  | some (field, frameLen) =>
      efpgParseLen
        { efpg with op := op, field := field, exptLen := frameLen } len
  | none =>
      if type ≠ efpgTypeUserArea then (false, { efpg with op := op })
      else
        match efpg.extCmd with
        | .normal =>
            if p.getD 6 0 ≠ 1 then (false, { efpg with op := op })
            else
              efpgParseLen
                { efpg with
                  op := op
                  extCmd := .ext
                  field := .ua
                  exptLen := efpgUserAreaExtLen } len
        | .ext =>
            let exptLen := userAreaFrameLen (u16At p 10)
            efpgParseLen
              { efpg with
                op := op
                protocolVersion := u16At p 6
                startBitAddr := u16At p 8
                bitLength := u16At p 10
                extCmd := .normal
                field := .ua
                exptLen := exptLen } exptLen

/-- `efpg_parse_cmd`; true stands for the result 0. -/
def efpgParseCmd (efpg : EfpgPriv) : Bool × EfpgPriv :=
  match opOfCode (u16At efpg.frame 0) with
  | none => (false, efpg)
  | some .exit => (true, { efpg with op := .exit })
  | some op => efpgParseType efpg op

/-! ### Handlers -/

/-- `efpg_send_ack`, and the state that follows it. -/
def acknowledged (turn : Turn) (sent failed : EfpgState) : EfpgState :=
  if turn.ackSent then sent else failed

def efpgExtCmdProcess (turn : Turn) (efpg : EfpgPriv)
    (dev : Device) : Processed :=
  { state := acknowledged turn .cont .reset
    efpg := { efpg with isCmd := true, recvLen := 0 }
    dev := dev
    calls := [.sendAck .ok] }

def efpgReadProcess (sha256 : Sha256) (arch : ChipArchVer) (turn : Turn)
    (efpg : EfpgPriv) (dev : Device) : Processed :=
  if turn.allocated = false then
    { state := .reset, efpg := efpg, dev := dev, calls := [] }
  else
    let room := efpg.exptLen - efpgMsgDgstLen
    let r := efpgReadField arch efpg.field efpg.startBitAddr efpg.bitLength dev
    let data := r.stored ++ List.replicate (room - r.stored.length) 0
    let msgDgst := toBytes (sha256 (efpg.cmdFrame.cells ++ data ++ efpg.key))
    let read := Call.readField efpg.field efpg.startBitAddr efpg.bitLength
      r.stored room
    { state := .reset
      efpg := efpg
      dev := r.dev
      calls :=
        if r.ack ≠ .ok then [read, .sendAck r.ack]
        else if turn.ackSent then
          [read, .sendAck .ok, .transmit (data ++ msgDgst)]
        else [read, .sendAck .ok] }

def efpgWriteProcess (turn : Turn) (efpg : EfpgPriv)
    (dev : Device) : Processed :=
  { state := acknowledged turn .cont .reset
    efpg := { efpg with isCmd := false, recvLen := 0 }
    dev := dev
    calls := [.sendAck .ok] }

def efpgStopProcess (turn : Turn) (efpg : EfpgPriv)
    (dev : Device) : Processed :=
  { state := acknowledged turn .stop .reset
    efpg := efpg
    dev := dev
    calls := [.stopProcess, .sendAck .ok] }

def efpgCmdFrameProcess (sha256 : Sha256) (arch : ChipArchVer) (turn : Turn)
    (efpg : EfpgPriv) (dev : Device) : Processed :=
  if efpgChecksum8 (efpg.frame.take efpg.recvLen) ≠ 0xFF then
    { state := .reset, efpg := efpg, dev := dev, calls := [.sendAck .csErr] }
  else
    match efpgParseCmd efpg with
    | (false, efpg) =>
        { state := .reset
          efpg := efpg
          dev := dev
          calls := [.sendAck .parseErr] }
    | (true, efpg) =>
        match efpg.extCmd with
        | .ext => efpgExtCmdProcess turn efpg dev
        | .normal =>
            match efpg.op with
            | .read => efpgReadProcess sha256 arch turn efpg dev
            | .write => efpgWriteProcess turn efpg dev
            | .exit => efpgStopProcess turn efpg dev
            | .num => { state := .stop, efpg := efpg, dev := dev, calls := [] }

def efpgDataFrameProcess (sha256 : Sha256) (arch : ChipArchVer) (turn : Turn)
    (efpg : EfpgPriv) (dev : Device) : Processed :=
  if efpgCheckMsgDgst sha256 turn efpg then
    let data := efpg.dataFrame.cells
    let (status, dev) := efpgWriteField arch efpg.field data efpg.startBitAddr
      efpg.bitLength dev
    { state := .reset
      efpg := efpg
      dev := dev
      calls :=
        [.writeField
            { field := efpg.field
              data := data
              startBitAddr := efpg.startBitAddr
              bitLength := efpg.bitLength },
          .sendAck status] }
  else
    { state := .reset, efpg := efpg, dev := dev, calls := [.sendAck .mdErr] }

end XR872.Efpg
