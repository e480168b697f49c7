/-
What one turn of the task can do.

The parser's four ways to accept a command frame, the handler's ways to answer
one, and the ways a turn can end are each listed once, with the guards they are
taken under. Later results are case analyses of these lists.
-/

import XR872.Efpg.Task

namespace XR872.Efpg

open BitView
open Buffers
open Chip.Efuse

/-! ### Command frames that are accepted -/

/-- `efpg_parse_cmd` accepts the frame and leaves `after`. -/
inductive Parsed (efpg : EfpgPriv) : EfpgPriv → Prop where
  | exit (code : opOfCode (u16At efpg.frame 0) = some .exit) :
      Parsed efpg { efpg with op := .exit }
  | fixed (op : EfpgOp) (code : opOfCode (u16At efpg.frame 0) = some op)
      (works : op = .read ∨ op = .write) (field : EfpgField)
      (type : fixedType (u16At efpg.frame 2) =
        some (field, u16At efpg.frame 4)) :
      Parsed efpg
        { efpg with op := op, field := field, exptLen := u16At efpg.frame 4 }
  | announce (op : EfpgOp) (code : opOfCode (u16At efpg.frame 0) = some op)
      (works : op = .read ∨ op = .write)
      (type : u16At efpg.frame 2 = efpgTypeUserArea)
      (len : u16At efpg.frame 4 = efpgUserAreaExtLen)
      (normal : efpg.extCmd = .normal) (mark : efpg.frame.getD 6 0 = 1) :
      Parsed efpg
        { efpg with
          op := op
          extCmd := .ext
          field := .ua
          exptLen := efpgUserAreaExtLen }
  | extended (op : EfpgOp) (code : opOfCode (u16At efpg.frame 0) = some op)
      (works : op = .read ∨ op = .write)
      (type : u16At efpg.frame 2 = efpgTypeUserArea)
      (ext : efpg.extCmd = .ext) :
      Parsed efpg
        { efpg with
          op := op
          protocolVersion := u16At efpg.frame 6
          startBitAddr := u16At efpg.frame 8
          bitLength := u16At efpg.frame 10
          extCmd := .normal
          field := .ua
          exptLen := userAreaFrameLen (u16At efpg.frame 10) }

theorem fixedType_userArea : fixedType efpgTypeUserArea = none := by decide

theorem opOfCode_ne_num (code : Nat) : opOfCode code ≠ some .num := by
  unfold opOfCode
  split
  · simp
  · split
    · simp
    · split <;> simp

theorem efpgParseLen_true {efpg after : EfpgPriv} {len : Nat}
    (accepted : efpgParseLen efpg len = (true, after)) :
    len = efpg.exptLen ∧ after = efpg := by
  have same := congrArg Prod.fst accepted
  exact ⟨of_decide_eq_true same, (congrArg Prod.snd accepted).symm⟩

theorem parsed_of_efpgParseType {efpg after : EfpgPriv} {op : EfpgOp}
    (code : opOfCode (u16At efpg.frame 0) = some op)
    (works : op = .read ∨ op = .write)
    (accepted : efpgParseType efpg op = (true, after)) : Parsed efpg after := by
  unfold efpgParseType at accepted
  dsimp only at accepted
  cases type : fixedType (u16At efpg.frame 2) with
  | some found =>
      obtain ⟨field, frameLen⟩ := found
      rw [type] at accepted
      obtain ⟨len, rfl⟩ := efpgParseLen_true accepted
      dsimp only at len
      rw [← len] at type ⊢
      exact Parsed.fixed op code works field type
  | none =>
      rw [type] at accepted
      dsimp only at accepted
      split at accepted
      · cases accepted
      · rename_i known
        have userArea := not_not.mp known
        split at accepted
        · rename_i normal
          split at accepted
          · cases accepted
          · rename_i marked
            obtain ⟨len, rfl⟩ := efpgParseLen_true accepted
            exact Parsed.announce op code works userArea len normal
              (not_not.mp marked)
        · rename_i ext
          obtain ⟨-, rfl⟩ := efpgParseLen_true accepted
          exact Parsed.extended op code works userArea ext

theorem parsed_of_efpgParseCmd {efpg after : EfpgPriv}
    (accepted : efpgParseCmd efpg = (true, after)) : Parsed efpg after := by
  unfold efpgParseCmd at accepted
  cases code : opOfCode (u16At efpg.frame 0) with
  | none =>
      rw [code] at accepted
      cases accepted
  | some op =>
      rw [code] at accepted
      cases op with
      | exit =>
          cases accepted
          exact Parsed.exit code
      | read => exact parsed_of_efpgParseType code (Or.inl rfl) accepted
      | write => exact parsed_of_efpgParseType code (Or.inr rfl) accepted
      | num => exact absurd code (opOfCode_ne_num _)

theorem efpgParseCmd_working {efpg : EfpgPriv} {op : EfpgOp}
    (code : opOfCode (u16At efpg.frame 0) = some op)
    (works : op = .read ∨ op = .write) :
    efpgParseCmd efpg = efpgParseType efpg op := by
  unfold efpgParseCmd
  rw [code]
  rcases works with rfl | rfl
  · rfl
  · rfl

theorem efpgParseCmd_of_parsed {efpg after : EfpgPriv}
    (parsed : Parsed efpg after) : efpgParseCmd efpg = (true, after) := by
  cases parsed with
  | exit code =>
      unfold efpgParseCmd
      rw [code]
  | fixed op code works field type =>
      rw [efpgParseCmd_working code works]
      unfold efpgParseType efpgParseLen
      simp [type]
  | announce op code works type len normal mark =>
      rw [efpgParseCmd_working code works]
      unfold efpgParseType efpgParseLen
      simp only [type, fixedType_userArea, normal, mark, len, ne_eq,
        not_true_eq_false, if_false, decide_true]
  | extended op code works type ext =>
      rw [efpgParseCmd_working code works]
      unfold efpgParseType efpgParseLen
      simp only [type, fixedType_userArea, ext, ne_eq, not_true_eq_false,
        if_false, decide_true]

/-! ### Answers to a command frame -/

/-- What `efpg_cmd_frame_process` makes of the frame. -/
inductive Answered (sha256 : Sha256) (arch : ChipArchVer) (turn : Turn)
    (efpg : EfpgPriv) (dev : Device) : Processed → Prop where
  | badChecksum (wrong : efpgChecksum8 (efpg.frame.take efpg.recvLen) ≠ 0xFF) :
      Answered sha256 arch turn efpg dev
        { state := .reset, efpg := efpg, dev := dev, calls := [.sendAck .csErr] }
  | badCommand (intact : efpgChecksum8 (efpg.frame.take efpg.recvLen) = 0xFF)
      (unknown : ∀ after, ¬ Parsed efpg after) (after : EfpgPriv) :
      Answered sha256 arch turn efpg dev
        { state := .reset
          efpg := after
          dev := dev
          calls := [.sendAck .parseErr] }
  | extended (intact : efpgChecksum8 (efpg.frame.take efpg.recvLen) = 0xFF)
      (after : EfpgPriv) (parsed : Parsed efpg after)
      (ext : after.extCmd = .ext) :
      Answered sha256 arch turn efpg dev (efpgExtCmdProcess turn after dev)
  | read (intact : efpgChecksum8 (efpg.frame.take efpg.recvLen) = 0xFF)
      (after : EfpgPriv) (parsed : Parsed efpg after)
      (normal : after.extCmd = .normal) (op : after.op = .read) :
      Answered sha256 arch turn efpg dev
        (efpgReadProcess sha256 arch turn after dev)
  | write (intact : efpgChecksum8 (efpg.frame.take efpg.recvLen) = 0xFF)
      (after : EfpgPriv) (parsed : Parsed efpg after)
      (normal : after.extCmd = .normal) (op : after.op = .write) :
      Answered sha256 arch turn efpg dev (efpgWriteProcess turn after dev)
  | exit (intact : efpgChecksum8 (efpg.frame.take efpg.recvLen) = 0xFF)
      (after : EfpgPriv) (parsed : Parsed efpg after)
      (normal : after.extCmd = .normal) (op : after.op = .exit) :
      Answered sha256 arch turn efpg dev (efpgStopProcess turn after dev)

theorem parsed_op_ne_num {efpg after : EfpgPriv} (parsed : Parsed efpg after) :
    after.op ≠ .num := by
  have working {op : EfpgOp} (works : op = .read ∨ op = .write) :
      op ≠ .num := by
    rcases works with rfl | rfl <;> simp
  cases parsed with
  | exit _ => simp
  | fixed _ _ works _ _ => exact working works
  | announce _ _ works _ _ _ _ => exact working works
  | extended _ _ works _ _ => exact working works

theorem efpgCmdFrameProcess_answered (sha256 : Sha256) (arch : ChipArchVer)
    (turn : Turn) (efpg : EfpgPriv) (dev : Device) :
    Answered sha256 arch turn efpg dev
      (efpgCmdFrameProcess sha256 arch turn efpg dev) := by
  unfold efpgCmdFrameProcess
  split
  · rename_i wrong
    exact Answered.badChecksum wrong
  · rename_i intact
    replace intact := not_not.mp intact
    cases outcome : efpgParseCmd efpg with
    | mk accepted after =>
        cases accepted with
        | false =>
            refine Answered.badCommand intact (fun other parsed => ?_) after
            rw [efpgParseCmd_of_parsed parsed] at outcome
            cases outcome
        | true =>
            have parsed := parsed_of_efpgParseCmd outcome
            dsimp only
            cases kind : after.extCmd with
            | ext => exact Answered.extended intact after parsed kind
            | normal =>
                cases op : after.op with
                | read => exact Answered.read intact after parsed kind op
                | write => exact Answered.write intact after parsed kind op
                | exit => exact Answered.exit intact after parsed kind op
                | num => exact absurd op (parsed_op_ne_num parsed)

/-! ### Arrival of a frame -/

theorem arrive_isSome_iff (efpg : EfpgPriv) (bytes : List Byte) :
    (efpg.arrive bytes).isSome ↔ bytes.length ≤ efpg.recvBuf.size := by
  unfold EfpgPriv.arrive
  cases efpg.recvBuf with
  | cmdFrame => simp [RecvBuf.size]
  | extCmdFrame => simp [RecvBuf.size]
  | dataFrame => simp [RecvBuf.size]

structure Arrived (efpg : EfpgPriv) (bytes : List Byte)
    (after : EfpgPriv) : Prop where
  fits : bytes.length ≤ efpg.recvBuf.size
  keeps : ∃ cmdFrame dataFrame extCmdFrame,
    after = { efpg with
      cmdFrame := cmdFrame
      dataFrame := dataFrame
      extCmdFrame := extCmdFrame }
  command : efpg.recvBuf = .cmdFrame → bytes.length = efpgCmdFrameLen →
    after.cmdFrame.cells = bytes
  extended : efpg.recvBuf = .extCmdFrame →
    bytes.length = efpgUserAreaExtLen → after.extCmdFrame.cells = bytes
  data : efpg.recvBuf = .dataFrame →
    after.dataFrame.cells.take bytes.length = bytes
  cmdKept : efpg.recvBuf ≠ .cmdFrame → after.cmdFrame = efpg.cmdFrame

theorem arrived_of_arrive {efpg after : EfpgPriv} {bytes : List Byte}
    (arrival : efpg.arrive bytes = some after) : Arrived efpg bytes after := by
  have fits := (arrive_isSome_iff efpg bytes).mp (by rw [arrival]; rfl)
  unfold EfpgPriv.arrive at arrival
  cases buf : efpg.recvBuf with
  | cmdFrame =>
      rw [buf] at arrival
      dsimp only at arrival
      split at arrival
      · rename_i within
        cases arrival
        exact
          { fits := fits
            keeps := ⟨_, _, _, rfl⟩
            command := fun _ all => Buffer.store_all _ _ within all
            extended := fun other => by rw [buf] at other; cases other
            data := fun other => by rw [buf] at other; cases other
            cmdKept := fun other => absurd buf other }
      · cases arrival
  | extCmdFrame =>
      rw [buf] at arrival
      dsimp only at arrival
      split at arrival
      · rename_i within
        cases arrival
        exact
          { fits := fits
            keeps := ⟨_, _, _, rfl⟩
            command := fun other => by rw [buf] at other; cases other
            extended := fun _ all => Buffer.store_all _ _ within all
            data := fun other => by rw [buf] at other; cases other
            cmdKept := fun _ => rfl }
      · cases arrival
  | dataFrame =>
      rw [buf] at arrival
      dsimp only at arrival
      split at arrival
      · rename_i within
        cases arrival
        exact
          { fits := fits
            keeps := ⟨_, _, _, rfl⟩
            command := fun other => by rw [buf] at other; cases other
            extended := fun other => by rw [buf] at other; cases other
            data := fun _ => Buffer.take_store _ _ within
            cmdKept := fun _ => rfl }
      · cases arrival

/-! ### Turns -/

/-- The bytes that a receive call for `exptLen` bytes stores. -/
def Turn.bytes (turn : Turn) (exptLen : Nat) : Option (List Byte) :=
  turn.received.map fun bytes => bytes.take exptLen

theorem Turn.bytes_none {turn : Turn} (broken : turn.received = none)
    (exptLen : Nat) : turn.bytes exptLen = none := by
  unfold Turn.bytes
  rw [broken]
  rfl

theorem Turn.bytes_length_le {turn : Turn} {exptLen : Nat} {bytes : List Byte}
    (arrives : turn.bytes exptLen = some bytes) : bytes.length ≤ exptLen := by
  unfold Turn.bytes at arrives
  cases received : turn.received with
  | none =>
      rw [received] at arrives
      cases arrives
  | some raw =>
      rw [received] at arrives
      obtain rfl := Option.some.inj arrives
      exact List.length_take_le _ _

def exchangeOf (before after : EfpgPriv) (turn : Turn)
    (bytes : List Byte) : Exchange :=
  { recvBuf := before.recvBuf
    exptLen := before.exptLen
    received := bytes
    calls := []
    state := .reset
    cmdFrame := after.cmdFrame.cells
    ackSent := turn.ackSent }

def processedSession (session : Session) (after : EfpgPriv) (turn : Turn)
    (bytes : List Byte) (p : Processed) : Session :=
  { phase := p.goto.1
    efpg := p.goto.2
    dev := p.dev
    trace :=
      { exchangeOf session.efpg after turn bytes with
        calls := p.calls
        state := p.state } :: session.trace }

inductive Turned (sha256 : Sha256) (arch : ChipArchVer) (session : Session)
    (turn : Turn) : Session → Prop where
  | idle (nothing : session.phase = .running →
        turn.bytes session.efpg.exptLen = some []) :
      Turned sha256 arch session turn session
  | failed (running : session.phase = .running)
      (broken : turn.received = none) :
      Turned sha256 arch session turn { session with phase := .stopped }
  | overrun (running : session.phase = .running) (bytes : List Byte)
      (arrives : turn.bytes session.efpg.exptLen = some bytes)
      (past : session.efpg.recvBuf.size < bytes.length) :
      Turned sha256 arch session turn
        { session with
          phase := .overrun
          trace := exchangeOf session.efpg session.efpg turn bytes ::
            session.trace }
  | short (running : session.phase = .running) (bytes : List Byte)
      (arrives : turn.bytes session.efpg.exptLen = some bytes)
      (after : EfpgPriv) (arrived : Arrived session.efpg bytes after)
      (partly : bytes.length ≠ session.efpg.exptLen) :
      Turned sha256 arch session turn
        { session with
          efpg := efpgReset after
          trace := exchangeOf session.efpg after turn bytes :: session.trace }
  | complete (running : session.phase = .running) (bytes : List Byte)
      (arrives : turn.bytes session.efpg.exptLen = some bytes)
      (after : EfpgPriv) (arrived : Arrived session.efpg bytes after)
      (all : bytes.length = session.efpg.exptLen) :
      Turned sha256 arch session turn
        (processedSession session after turn bytes
          (efpgProcess sha256 arch turn { after with recvLen := bytes.length }
            session.dev))

theorem efpgTurn_turned (sha256 : Sha256) (arch : ChipArchVer)
    (session : Session) (turn : Turn) :
    Turned sha256 arch session turn (efpgTurn sha256 arch session turn) := by
  unfold efpgTurn
  cases running : session.phase with
  | stopped =>
      refine Turned.idle fun impossible => ?_
      rw [running] at impossible
      cases impossible
  | overrun =>
      refine Turned.idle fun impossible => ?_
      rw [running] at impossible
      cases impossible
  | running =>
      cases received : turn.received with
      | none => exact Turned.failed running received
      | some raw =>
          have arrives : turn.bytes session.efpg.exptLen =
              some (raw.take session.efpg.exptLen) := by
            unfold Turn.bytes
            rw [received]
            rfl
          dsimp only
          split
          · rename_i empty
            refine Turned.idle fun _ => ?_
            rw [arrives, empty]
          · unfold efpgReceive
            dsimp only
            cases arrival : session.efpg.arrive
                (raw.take session.efpg.exptLen) with
            | none =>
                have past : session.efpg.recvBuf.size <
                    (raw.take session.efpg.exptLen).length := by
                  by_contra within
                  have arrived := (arrive_isSome_iff session.efpg _).mpr
                    (Nat.le_of_not_lt within)
                  rw [arrival] at arrived
                  cases arrived
                exact Turned.overrun running _ arrives past
            | some after =>
                have arrived := arrived_of_arrive arrival
                obtain ⟨_, _, _, keeps⟩ := arrived.keeps
                have sameLen : after.exptLen = session.efpg.exptLen := by
                  rw [keeps]
                dsimp only
                split
                · rename_i partly
                  rw [sameLen] at partly
                  exact Turned.short running _ arrives after arrived partly
                · rename_i all
                  rw [sameLen] at all
                  exact Turned.complete running _ arrives after arrived
                    (not_not.mp all)

/-! ### Where the frame goes -/

theorem recvBuf_command {efpg : EfpgPriv} (isCmd : efpg.isCmd = true)
    (normal : efpg.extCmd = .normal) : efpg.recvBuf = .cmdFrame := by
  unfold EfpgPriv.recvBuf
  rw [isCmd, normal]
  rfl

theorem recvBuf_extended {efpg : EfpgPriv} (isCmd : efpg.isCmd = true)
    (ext : efpg.extCmd = .ext) : efpg.recvBuf = .extCmdFrame := by
  unfold EfpgPriv.recvBuf
  rw [isCmd, ext]
  rfl

theorem recvBuf_data {efpg : EfpgPriv} (isData : efpg.isCmd = false) :
    efpg.recvBuf = .dataFrame := by
  unfold EfpgPriv.recvBuf
  rw [isData]
  rfl

/-! ### What the task waits for -/

inductive Waiting (efpg : EfpgPriv) : Prop where
  | command (isCmd : efpg.isCmd = true) (normal : efpg.extCmd = .normal)
      (len : efpg.exptLen = efpgCmdFrameLen) (start : efpg.startBitAddr = 0)
      (bits : efpg.bitLength = 0)
  | extended (isCmd : efpg.isCmd = true) (ext : efpg.extCmd = .ext)
      (len : efpg.exptLen = efpgUserAreaExtLen ∨
        efpgMsgDgstLen < efpg.exptLen)
  | data (isData : efpg.isCmd = false) (normal : efpg.extCmd = .normal)
      (len : efpg.exptLen =
        fieldBytes efpg.field efpg.bitLength + efpgMsgDgstLen)

theorem waiting_reset (efpg : EfpgPriv) : Waiting (efpgReset efpg) :=
  Waiting.command rfl rfl rfl rfl rfl

theorem fixedType_len {type frameLen : Nat} {field : EfpgField}
    (fixed : fixedType type = some (field, frameLen)) (bitLen : Nat) :
    frameLen = fieldBytes field bitLen + efpgMsgDgstLen ∧
      efpgMsgDgstLen < frameLen ∧ frameLen ≤ 32 + efpgMsgDgstLen ∧
      field ≠ .ua := by
  unfold fixedType at fixed
  split at fixed
  · cases fixed
    simp [fieldBytes, efpgMsgDgstLen]
  · split at fixed
    · cases fixed
      simp [fieldBytes, efpgMsgDgstLen]
    · split at fixed
      · cases fixed
        simp [fieldBytes, efpgMsgDgstLen]
      · split at fixed
        · cases fixed
          simp [fieldBytes, efpgMsgDgstLen]
        · cases fixed

theorem userAreaFrameLen_eq (bitLength : Nat) :
    userAreaFrameLen bitLength =
      fieldBytes .ua bitLength + efpgMsgDgstLen := by
  have bytes : fieldBytes .ua bitLength = (bitLength + 7) / 8 := rfl
  unfold userAreaFrameLen
  rw [bytes]
  split <;> omega

/-- An accepted frame leaves the task ready for the frame it announces. -/
theorem parsed_len {efpg after : EfpgPriv} (parsed : Parsed efpg after)
    (normal : after.extCmd = .normal) (works : after.op ≠ .exit) :
    after.exptLen = fieldBytes after.field after.bitLength + efpgMsgDgstLen := by
  cases parsed with
  | exit => exact absurd rfl works
  | fixed op code working field type => exact (fixedType_len type _).1
  | announce => cases normal
  | extended => exact userAreaFrameLen_eq _

structure SameControl (efpg after : EfpgPriv) : Prop where
  key : after.key = efpg.key
  isCmd : after.isCmd = efpg.isCmd
  extCmd : after.extCmd = efpg.extCmd
  exptLen : after.exptLen = efpg.exptLen
  startBitAddr : after.startBitAddr = efpg.startBitAddr
  bitLength : after.bitLength = efpg.bitLength
  field : after.field = efpg.field

theorem Arrived.control {efpg after : EfpgPriv} {bytes : List Byte}
    (arrived : Arrived efpg bytes after) (recvLen : Nat) :
    SameControl efpg { after with recvLen := recvLen } := by
  obtain ⟨_, _, _, rfl⟩ := arrived.keeps
  exact
    { key := rfl
      isCmd := rfl
      extCmd := rfl
      exptLen := rfl
      startBitAddr := rfl
      bitLength := rfl
      field := rfl }

/-- In the command part a complete frame is what the parser looks at. -/
theorem Arrived.frame {efpg after : EfpgPriv} {bytes : List Byte}
    (arrived : Arrived efpg bytes after) (isCmd : efpg.isCmd = true)
    (whole : bytes.length = efpg.recvBuf.size) :
    ({ after with recvLen := bytes.length } : EfpgPriv).frame = bytes := by
  have control := arrived.control bytes.length
  unfold EfpgPriv.frame
  rw [control.extCmd]
  unfold EfpgPriv.recvBuf at whole
  rw [isCmd, if_pos rfl] at whole
  cases kind : efpg.extCmd with
  | ext =>
      rw [kind] at whole
      have buf : efpg.recvBuf = .extCmdFrame := by
        simp [EfpgPriv.recvBuf, isCmd, kind]
      exact arrived.extended buf whole
  | normal =>
      rw [kind] at whole
      have buf : efpg.recvBuf = .cmdFrame := by
        simp [EfpgPriv.recvBuf, isCmd, kind]
      exact arrived.command buf whole

theorem efpgReadProcess_state (sha256 : Sha256) (arch : ChipArchVer)
    (turn : Turn) (efpg : EfpgPriv) (dev : Device) :
    (efpgReadProcess sha256 arch turn efpg dev).state = .reset := by
  unfold efpgReadProcess
  split <;> rfl

theorem efpgDataFrameProcess_state (sha256 : Sha256) (arch : ChipArchVer)
    (turn : Turn) (efpg : EfpgPriv) (dev : Device) :
    (efpgDataFrameProcess sha256 arch turn efpg dev).state = .reset := by
  unfold efpgDataFrameProcess
  split <;> rfl

section Dispatch

variable {efpg after : EfpgPriv} {bytes : List Byte}
  (arrived : Arrived efpg bytes after) (sha256 : Sha256) (arch : ChipArchVer)
  (turn : Turn) (recvLen : Nat) (dev : Device)

include arrived

theorem Arrived.process_data (isData : efpg.isCmd = false) :
    efpgProcess sha256 arch turn { after with recvLen := recvLen } dev =
      efpgDataFrameProcess sha256 arch turn { after with recvLen := recvLen }
        dev := by
  apply if_neg
  rw [(arrived.control recvLen).isCmd, isData]
  exact Bool.false_ne_true

theorem Arrived.process_command (isCmd : efpg.isCmd = true) :
    efpgProcess sha256 arch turn { after with recvLen := recvLen } dev =
      efpgCmdFrameProcess sha256 arch turn { after with recvLen := recvLen }
        dev := by
  apply if_pos
  rw [(arrived.control recvLen).isCmd, isCmd]

theorem Arrived.reset_data (isData : efpg.isCmd = false) :
    (efpgProcess sha256 arch turn { after with recvLen := recvLen } dev).state =
      .reset := by
  rw [arrived.process_data sha256 arch turn recvLen dev isData]
  exact efpgDataFrameProcess_state sha256 arch turn _ dev

theorem Arrived.answered_command (isCmd : efpg.isCmd = true) :
    Answered sha256 arch turn { after with recvLen := recvLen } dev
      (efpgProcess sha256 arch turn { after with recvLen := recvLen } dev) := by
  rw [arrived.process_command sha256 arch turn recvLen dev isCmd]
  exact efpgCmdFrameProcess_answered sha256 arch turn _ dev

end Dispatch

theorem acknowledged_sent {turn : Turn} {sent failed : EfpgState}
    (ok : turn.ackSent = true) : acknowledged turn sent failed = sent :=
  if_pos ok

theorem acknowledged_failed {turn : Turn} {sent failed : EfpgState}
    (lost : turn.ackSent = false) : acknowledged turn sent failed = failed :=
  if_neg (by rw [lost]; simp)

theorem goto_of_reset {p : Processed} (state : p.state = .reset) :
    p.goto = (.running, efpgReset p.efpg) := by
  unfold Processed.goto
  rw [state]

theorem goto_of_cont {p : Processed} (state : p.state = .cont) :
    p.goto = (.running, p.efpg) := by
  unfold Processed.goto
  rw [state]

theorem goto_of_stop {p : Processed} (state : p.state = .stop) :
    p.goto = (.stopped, p.efpg) := by
  unfold Processed.goto
  rw [state]

theorem waiting_of_reset {p : Processed} (state : p.state = .reset) :
    Waiting p.goto.2 := by
  rw [goto_of_reset state]
  exact waiting_reset p.efpg

/-- After an answered command the task waits for what the answer announced. -/
theorem answered_waiting {sha256 : Sha256} {arch : ChipArchVer} {turn : Turn}
    {efpg : EfpgPriv} {dev : Device} {p : Processed} (waiting : Waiting efpg)
    (answered : Answered sha256 arch turn efpg dev p)
    (running : p.goto.1 = .running) : Waiting p.goto.2 := by
  cases answered with
  | badChecksum wrong => exact waiting_of_reset rfl
  | badCommand intact unknown after => exact waiting_of_reset rfl
  | extended intact after parsed ext =>
      cases sent : turn.ackSent with
      | false =>
          have state : (efpgExtCmdProcess turn after dev).state = .reset :=
            acknowledged_failed sent
          exact waiting_of_reset state
      | true =>
          have state : (efpgExtCmdProcess turn after dev).state = .cont :=
            acknowledged_sent sent
          rw [goto_of_cont state]
          refine Waiting.extended rfl ext ?_
          change after.exptLen = _ ∨ _ < after.exptLen
          cases parsed with
          | exit code =>
              cases waiting with
              | command _ normal _ _ _ =>
                  rw [normal] at ext
                  cases ext
              | extended _ _ len => exact len
              | data _ normal _ =>
                  rw [normal] at ext
                  cases ext
          | fixed op code works field type =>
              exact Or.inr (fixedType_len type 0).2.1
          | announce => exact Or.inl rfl
          | extended => cases ext
  | read intact after parsed normal op =>
      exact waiting_of_reset (efpgReadProcess_state sha256 arch turn after dev)
  | write intact after parsed normal op =>
      cases sent : turn.ackSent with
      | false =>
          have state : (efpgWriteProcess turn after dev).state = .reset :=
            acknowledged_failed sent
          exact waiting_of_reset state
      | true =>
          have state : (efpgWriteProcess turn after dev).state = .cont :=
            acknowledged_sent sent
          rw [goto_of_cont state]
          have len := parsed_len parsed normal fun leaves => by
            rw [op] at leaves
            cases leaves
          exact Waiting.data rfl normal len
  | exit intact after parsed normal op =>
      cases sent : turn.ackSent with
      | false =>
          have state : (efpgStopProcess turn after dev).state = .reset :=
            acknowledged_failed sent
          exact waiting_of_reset state
      | true =>
          have state : (efpgStopProcess turn after dev).state = .stop :=
            acknowledged_sent sent
          rw [goto_of_stop state] at running
          cases running

theorem Waiting.of_control {efpg after : EfpgPriv} (waiting : Waiting efpg)
    (control : SameControl efpg after) : Waiting after := by
  cases waiting with
  | command isCmd normal len start bits =>
      exact Waiting.command (control.isCmd.trans isCmd)
        (control.extCmd.trans normal) (control.exptLen.trans len)
        (control.startBitAddr.trans start) (control.bitLength.trans bits)
  | extended isCmd ext len =>
      refine Waiting.extended (control.isCmd.trans isCmd)
        (control.extCmd.trans ext) ?_
      rw [control.exptLen]
      exact len
  | data isData normal len =>
      refine Waiting.data (control.isCmd.trans isData)
        (control.extCmd.trans normal) ?_
      rw [control.exptLen, control.field, control.bitLength]
      exact len

def WellFormed (session : Session) : Prop :=
  session.phase = .running → Waiting session.efpg

theorem wellFormed_start (efpg : EfpgPriv) (dev : Device) :
    WellFormed (Session.start efpg dev) := fun _ => waiting_reset efpg

theorem wellFormed_turn (sha256 : Sha256) (arch : ChipArchVer)
    (session : Session) (turn : Turn) (wellFormed : WellFormed session) :
    WellFormed (efpgTurn sha256 arch session turn) := by
  have turned := efpgTurn_turned sha256 arch session turn
  generalize efpgTurn sha256 arch session turn = next at turned ⊢
  cases turned with
  | idle nothing => exact wellFormed
  | failed running broken => exact fun stopped => nomatch stopped
  | overrun running bytes arrives past => exact fun ended => nomatch ended
  | short running bytes arrives after arrived partly =>
      exact fun _ => waiting_reset after
  | complete running bytes arrives after arrived all =>
      intro stillRunning
      have control := arrived.control bytes.length
      have waiting := (wellFormed running).of_control control
      change Waiting (efpgProcess sha256 arch turn _ session.dev).goto.2
      change (efpgProcess sha256 arch turn _ session.dev).goto.1 = _
        at stillRunning
      unfold efpgProcess at stillRunning ⊢
      split at stillRunning
      · rename_i isCmd
        rw [if_pos isCmd]
        exact answered_waiting waiting
          (efpgCmdFrameProcess_answered sha256 arch turn _ session.dev)
          stillRunning
      · rename_i isData
        rw [if_neg isData]
        exact waiting_of_reset
          (efpgDataFrameProcess_state sha256 arch turn _ session.dev)

/-- A complete frame in the command part fills its buffer exactly: a longer
extended request would run past the end. -/
theorem whole_of_complete {efpg after : EfpgPriv} {bytes : List Byte}
    (waiting : Waiting efpg) (isCmd : efpg.isCmd = true)
    (arrived : Arrived efpg bytes after) (all : bytes.length = efpg.exptLen) :
    bytes.length = efpg.recvBuf.size := by
  have fits := arrived.fits
  cases waiting with
  | command _ normal len _ _ =>
      rw [recvBuf_command isCmd normal, all, len]
      rfl
  | extended _ ext len =>
      rw [recvBuf_extended isCmd ext] at fits ⊢
      change bytes.length ≤ efpgUserAreaExtLen at fits
      change bytes.length = efpgUserAreaExtLen
      rcases len with exactly | longer
      · rw [all, exactly]
      · rw [all] at fits
        exact absurd (Nat.lt_of_lt_of_le longer fits) (by decide)
  | data isData _ _ =>
      rw [isCmd] at isData
      cases isData

section Answers

variable {sha256 : Sha256} {arch : ChipArchVer} {turn : Turn} {efpg : EfpgPriv}
  {dev : Device} {p : Processed}

theorem isCmd_of_reset (state : p.state = .reset) : p.goto.2.isCmd = true := by
  rw [goto_of_reset state]
  rfl

theorem recvBuf_of_reset (state : p.state = .reset) :
    p.goto.2.recvBuf = .cmdFrame := by
  rw [goto_of_reset state]
  rfl

theorem answered_data (answered : Answered sha256 arch turn efpg dev p)
    (isCmd : efpg.isCmd = true) (awaits : p.goto.2.isCmd = false) :
    ∃ after, Parsed efpg after ∧ after.extCmd = .normal ∧ after.op = .write ∧
      efpgChecksum8 (efpg.frame.take efpg.recvLen) = 0xFF ∧
      turn.ackSent = true ∧ p = efpgWriteProcess turn after dev := by
  cases answered with
  | badChecksum wrong =>
      rw [isCmd_of_reset rfl] at awaits
      cases awaits
  | badCommand intact unknown after =>
      rw [isCmd_of_reset rfl] at awaits
      cases awaits
  | extended intact after parsed ext =>
      unfold Processed.goto at awaits
      split at awaits <;> cases awaits
  | read intact after parsed normal op =>
      rw [isCmd_of_reset (efpgReadProcess_state sha256 arch turn after dev)]
        at awaits
      cases awaits
  | write intact after parsed normal op =>
      cases sent : turn.ackSent with
      | true => exact ⟨after, parsed, normal, op, intact, rfl, rfl⟩
      | false =>
          have state : (efpgWriteProcess turn after dev).state = .reset :=
            acknowledged_failed sent
          rw [isCmd_of_reset state] at awaits
          cases awaits
  | exit intact after parsed normal op =>
      have kept : after.isCmd = true := by
        cases parsed with
        | exit code => exact isCmd
        | fixed => exact isCmd
        | announce => exact isCmd
        | extended => exact isCmd
      unfold Processed.goto at awaits
      split at awaits
      · change after.isCmd = false at awaits
        rw [kept] at awaits
        cases awaits
      · cases awaits
      · change after.isCmd = false at awaits
        rw [kept] at awaits
        cases awaits

/-- Only an accepted command that leaves the extended mode on makes the task
wait for an extended frame. -/
theorem answered_awaitsExtended
    (answered : Answered sha256 arch turn efpg dev p)
    (running : p.goto.1 = .running)
    (awaits : p.goto.2.recvBuf = .extCmdFrame) :
    ∃ after, Parsed efpg after ∧ after.extCmd = .ext ∧
      efpgChecksum8 (efpg.frame.take efpg.recvLen) = 0xFF ∧
      turn.ackSent = true ∧ p = efpgExtCmdProcess turn after dev := by
  have notReset : p.state ≠ .reset := by
    intro state
    rw [recvBuf_of_reset state] at awaits
    cases awaits
  cases answered with
  | badChecksum wrong => exact absurd rfl notReset
  | badCommand intact unknown after => exact absurd rfl notReset
  | extended intact after parsed ext =>
      cases sent : turn.ackSent with
      | true => exact ⟨after, parsed, ext, intact, rfl, rfl⟩
      | false => exact absurd (acknowledged_failed sent) notReset
  | read intact after parsed normal op =>
      exact absurd (efpgReadProcess_state sha256 arch turn after dev) notReset
  | write intact after parsed normal op =>
      cases sent : turn.ackSent with
      | true =>
          have state : (efpgWriteProcess turn after dev).state = .cont :=
            acknowledged_sent sent
          rw [goto_of_cont state] at awaits
          cases awaits
      | false => exact absurd (acknowledged_failed sent) notReset
  | exit intact after parsed normal op =>
      cases sent : turn.ackSent with
      | true =>
          have state : (efpgStopProcess turn after dev).state = .stop :=
            acknowledged_sent sent
          rw [goto_of_stop state] at running
          cases running
      | false => exact absurd (acknowledged_failed sent) notReset

end Answers

structure Complete (session : Session) (turn : Turn) (bytes : List Byte)
    (after : EfpgPriv) : Prop where
  running : session.phase = .running
  arrives : turn.bytes session.efpg.exptLen = some bytes
  arrived : Arrived session.efpg bytes after
  all : bytes.length = session.efpg.exptLen

theorem efpgTurn_complete {session : Session} {turn : Turn}
    {bytes : List Byte} (sha256 : Sha256) (arch : ChipArchVer)
    (running : session.phase = .running) (waiting : Waiting session.efpg)
    (arrives : turn.bytes session.efpg.exptLen = some bytes)
    (all : bytes.length = session.efpg.exptLen)
    (fits : bytes.length ≤ session.efpg.recvBuf.size) :
    ∃ after, Complete session turn bytes after ∧
      efpgTurn sha256 arch session turn =
        processedSession session after turn bytes
          (efpgProcess sha256 arch turn { after with recvLen := bytes.length }
            session.dev) := by
  have turned := efpgTurn_turned sha256 arch session turn
  generalize efpgTurn sha256 arch session turn = next at turned ⊢
  cases turned with
  | idle nothing =>
      rw [nothing running] at arrives
      obtain rfl := Option.some.inj arrives
      cases waiting with
      | command _ _ len =>
          rw [len] at all
          cases all
      | extended _ _ len =>
          rcases len with exactly | longer
          · rw [exactly] at all
            cases all
          · rw [← all] at longer
            cases longer
      | data _ _ len =>
          rw [len] at all
          exact absurd all.symm (Nat.succ_ne_zero _)
  | failed _ broken =>
      unfold Turn.bytes at arrives
      rw [broken] at arrives
      cases arrives
  | overrun _ received arrived past =>
      rw [arrives] at arrived
      obtain rfl := Option.some.inj arrived
      exact absurd (Nat.lt_of_lt_of_le past fits) (Nat.lt_irrefl _)
  | short _ received arrived _ _ partly =>
      rw [arrives] at arrived
      obtain rfl := Option.some.inj arrived
      exact absurd all partly
  | complete _ received same after arrived whole =>
      rw [arrives] at same
      obtain rfl := Option.some.inj same
      exact ⟨after, ⟨running, arrives, arrived, whole⟩, rfl⟩

theorem efpgCmdFrameProcess_extended {sha256 : Sha256} {arch : ChipArchVer}
    {turn : Turn} {efpg after : EfpgPriv} {dev : Device}
    (intact : efpgChecksum8 (efpg.frame.take efpg.recvLen) = 0xFF)
    (parsed : Parsed efpg after) (ext : after.extCmd = .ext) :
    efpgCmdFrameProcess sha256 arch turn efpg dev =
      efpgExtCmdProcess turn after dev := by
  unfold efpgCmdFrameProcess
  rw [if_neg (not_not_intro intact), efpgParseCmd_of_parsed parsed]
  dsimp only
  rw [ext]

theorem efpgCmdFrameProcess_write {sha256 : Sha256} {arch : ChipArchVer}
    {turn : Turn} {efpg after : EfpgPriv} {dev : Device}
    (intact : efpgChecksum8 (efpg.frame.take efpg.recvLen) = 0xFF)
    (parsed : Parsed efpg after) (normal : after.extCmd = .normal)
    (op : after.op = .write) :
    efpgCmdFrameProcess sha256 arch turn efpg dev =
      efpgWriteProcess turn after dev := by
  unfold efpgCmdFrameProcess
  rw [if_neg (not_not_intro intact), efpgParseCmd_of_parsed parsed]
  dsimp only
  rw [normal, op]

/-! ### Data frames that are accepted -/

/-- The frame ends in the digest that the device computes of the command frame,
the payload and the key. -/
def DigestMatches (sha256 : Sha256) (key cmdFrame frame : List Byte) : Prop :=
  ∃ message,
    hashedMessage
        [cmdFrame, frame.take (frame.length - efpgMsgDgstLen), key] =
      some message ∧
    frame.drop (frame.length - efpgMsgDgstLen) = toBytes (sha256 message)

theorem DigestMatches.keyed {sha256 : Sha256} {key cmdFrame frame : List Byte}
    (digest : DigestMatches sha256 key cmdFrame frame) : key ≠ [] := by
  obtain ⟨message, hashed, -⟩ := digest
  exact nonempty_of_hashedMessage hashed key (by simp)

/-- The driver takes no empty part, so there is a payload in front of the
digest. -/
theorem DigestMatches.holdsPayload {sha256 : Sha256}
    {key cmdFrame frame : List Byte}
    (digest : DigestMatches sha256 key cmdFrame frame) :
    efpgMsgDgstLen < frame.length := by
  obtain ⟨message, hashed, -⟩ := digest
  have some := nonempty_of_hashedMessage hashed
    (frame.take (frame.length - efpgMsgDgstLen)) (by simp)
  have long := List.length_pos_of_ne_nil some
  rw [List.length_take] at long
  omega

theorem efpgCheckMsgDgst_iff {sha256 : Sha256} {turn : Turn}
    {efpg after : EfpgPriv} {bytes : List Byte}
    (isData : efpg.isCmd = false) (arrived : Arrived efpg bytes after) :
    efpgCheckMsgDgst sha256 turn { after with recvLen := bytes.length } = true ↔
      turn.hashed = true ∧
        DigestMatches sha256 efpg.key efpg.cmdFrame.cells bytes := by
  have buf := recvBuf_data isData
  have payload := arrived.data buf
  have command := arrived.cmdKept (by rw [buf]; simp)
  have key := (arrived.control bytes.length).key
  change after.key = _ at key
  unfold efpgCheckMsgDgst DigestMatches
  dsimp only
  rw [payload, command, key]
  cases hashed : hashedMessage [efpg.cmdFrame.cells,
      bytes.take (bytes.length - efpgMsgDgstLen), efpg.key] with
  | none =>
      refine iff_of_false Bool.false_ne_true ?_
      rintro ⟨-, message, refused, -⟩
      cases refused
  | some message =>
      dsimp only
      rw [Bool.and_eq_true, decide_eq_true_iff]
      refine and_congr_right fun _ => ⟨fun same => ⟨message, rfl, same⟩, ?_⟩
      rintro ⟨other, same, matched⟩
      obtain rfl := Option.some.inj same
      exact matched

theorem efpgDataFrameProcess_calls (sha256 : Sha256) (arch : ChipArchVer)
    (turn : Turn) (efpg : EfpgPriv) (dev : Device) (write : FieldWrite) :
    .writeField write ∈ (efpgDataFrameProcess sha256 arch turn efpg dev).calls ↔
      efpgCheckMsgDgst sha256 turn efpg = true ∧
        write =
          { field := efpg.field
            data := efpg.dataFrame.cells
            startBitAddr := efpg.startBitAddr
            bitLength := efpg.bitLength } := by
  unfold efpgDataFrameProcess
  cases accepted : efpgCheckMsgDgst sha256 turn efpg with
  | true => simp
  | false => simp

theorem answered_calls {sha256 : Sha256} {arch : ChipArchVer} {turn : Turn}
    {efpg : EfpgPriv} {dev : Device} {p : Processed}
    (answered : Answered sha256 arch turn efpg dev p) (write : FieldWrite) :
    .writeField write ∉ p.calls := by
  cases answered with
  | badChecksum wrong => simp
  | badCommand intact unknown after => simp
  | extended intact after parsed ext => simp [efpgExtCmdProcess]
  | read intact after parsed normal op =>
      unfold efpgReadProcess
      split
      · simp
      · dsimp only
        split
        · simp
        · split <;> simp
  | write intact after parsed normal op => simp [efpgWriteProcess]
  | exit intact after parsed normal op => simp [efpgStopProcess]

/-! ### Frames as the host sends them -/

theorem efpgChecksum8_append (body : List Byte) (last : Byte) :
    efpgChecksum8 (body ++ [last]) = efpgChecksum8 body + last := by
  unfold efpgChecksum8
  rw [List.foldl_append]
  rfl

def sealFrame (body : List Byte) : List Byte :=
  body ++ [0xFF - efpgChecksum8 body]

theorem efpgChecksum8_sealFrame (body : List Byte) :
    efpgChecksum8 (sealFrame body) = 0xFF := by
  rw [sealFrame, efpgChecksum8_append, BitVec.add_comm, BitVec.sub_add_cancel]

theorem sealFrame_length (body : List Byte) :
    (sealFrame body).length = body.length + 1 := by
  unfold sealFrame
  rw [List.length_append, List.length_singleton]

theorem u16At_sealFrame (body : List Byte) (offset : Nat)
    (inside : offset + 1 < body.length) :
    u16At (sealFrame body) offset = u16At body offset := by
  unfold u16At sealFrame
  simp only [List.getD_eq_getElem?_getD]
  rw [List.getElem?_append_left (by omega), List.getElem?_append_left inside]

/-- The bytes of a `uint16_t`. -/
def le16 (value : Nat) : List Byte :=
  [BitVec.ofNat 8 value, BitVec.ofNat 8 (value / 256)]

/-- A turn in which `bytes` arrive and everything succeeds. -/
def Turn.receive (bytes : List Byte) : Turn :=
  { received := some bytes, ackSent := true, allocated := true, hashed := true }

/-- The user area announcement with a given operation code. -/
def userAreaCommand (opCode : Nat) : List Byte :=
  sealFrame (le16 opCode ++ le16 efpgTypeUserArea ++
    le16 efpgUserAreaExtLen ++ [0x01])

def extendedFrame (opCode type len start bitLength : Nat) : List Byte :=
  sealFrame (le16 opCode ++ le16 type ++ le16 len ++ le16 0 ++ le16 start ++
    le16 bitLength)

/-- A session in zeroed memory. -/
def zeroedEfpg (key : List Byte) : EfpgPriv :=
  { key := key
    isCmd := false
    extCmd := .normal
    cmdFrame := Buffer.fill _ 0
    dataFrame := Buffer.fill _ 0
    extCmdFrame := Buffer.fill _ 0
    exptLen := 0
    recvLen := 0
    protocolVersion := 0
    startBitAddr := 0
    bitLength := 0
    op := .num
    field := .num }

/-- An available driver over a blank fuse array. -/
def blankDevice : Device :=
  { state := .ready, hfClock := hoscClock24M, sid := 0, stuck := 0 }

end XR872.Efpg
