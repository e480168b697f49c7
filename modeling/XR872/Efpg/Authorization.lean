/-
What the digest of a data frame authorizes.

The digest covers the normal command frame, the payload and the key. The fuses of
a user area write come from the extended frame, which it does not cover.
-/

import XR872.Efpg.TaskSpec

namespace XR872.Efpg

open BitView
open Buffers
open Chip.Efuse
open Crypto
open Runs

/-! ### The property -/

/-- Some run of the session holds this key and this command frame when the data
frame arrives, and answers it with this user area write. -/
def UserAreaWritten (sha256 : Sha256) (arch : ChipArchVer)
    (key cmdFrame frame : List Byte) (write : FieldWrite) : Prop :=
  ∃ efpg dev turns turn,
    let session := run (efpgTurn sha256 arch) (Session.start efpg dev) turns
    session.efpg.key = key ∧ session.efpg.cmdFrame.cells = cmdFrame ∧
      turn.bytes session.efpg.exptLen = some frame ∧
        write.field = .ua ∧
          ∃ exchange,
            (efpgTurn sha256 arch session turn).trace =
                exchange :: session.trace ∧
              .writeField write ∈ exchange.calls

/-- Key, command frame and data frame determine the fuses that are written. -/
def AuthorizationCoversTarget (sha256 : Sha256) (arch : ChipArchVer)
    (key cmdFrame frame : List Byte) : Prop :=
  ∀ first second,
    UserAreaWritten sha256 arch key cmdFrame frame first →
      UserAreaWritten sha256 arch key cmdFrame frame second →
        first.startBitAddr = second.startBitAddr ∧
          first.bitLength = second.bitLength

structure AnnouncesUserArea (cmdFrame : List Byte) : Prop where
  whole : cmdFrame.length = efpgCmdFrameLen
  intact : efpgChecksum8 cmdFrame = 0xFF
  works : ∃ op, opOfCode (u16At cmdFrame 0) = some op ∧
    (op = .read ∨ op = .write)
  type : u16At cmdFrame 2 = efpgTypeUserArea
  len : u16At cmdFrame 4 = efpgUserAreaExtLen
  mark : cmdFrame.getD 6 0 = 1

/-- The host has authorized a user area write: a command frame that announces it,
and a data frame of a possible size with the digest of both. -/
structure Authorized (sha256 : Sha256) (key cmdFrame frame : List Byte) :
    Prop where
  announces : AnnouncesUserArea cmdFrame
  holdsDigest : efpgMsgDgstLen < frame.length
  fits : frame.length ≤ efpgDataFrameLenMax
  keyed : key ≠ []
  digest : DigestMatches sha256 key cmdFrame frame

/-! ### Only authorized frames are written -/

/-- While a user area access is open, `cmd_frame` announces it. -/
structure CommandKept (session : Session) : Prop where
  waiting : WellFormed session
  extended : session.phase = .running → session.efpg.extCmd = .ext →
    AnnouncesUserArea session.efpg.cmdFrame.cells
  data : session.phase = .running → session.efpg.isCmd = false →
    session.efpg.field = .ua → AnnouncesUserArea session.efpg.cmdFrame.cells

theorem commandKept_of_reset {session : Session} (waiting : WellFormed session)
    (normal : session.phase = .running → session.efpg.extCmd = .normal)
    (isCmd : session.phase = .running → session.efpg.isCmd = true) :
    CommandKept session := by
  refine { waiting := waiting, extended := ?_, data := ?_ }
  · intro running ext
    exact absurd ((normal running).symm.trans ext) (by simp)
  · intro running isData
    exact absurd ((isCmd running).symm.trans isData) (by simp)

section Complete

variable {sha256 : Sha256} {arch : ChipArchVer} {session : Session}
  {turn : Turn} {bytes : List Byte} {after : EfpgPriv} {p : Processed}

/-- A command frame that opens or keeps open the extended mode leaves an
announcement in `cmd_frame`. -/
theorem announces_of_extended (kept : CommandKept session)
    (complete : Complete session turn bytes after)
    (isCmd : session.efpg.isCmd = true) {parsedTo : EfpgPriv}
    (intact : efpgChecksum8 bytes = 0xFF)
    (frame : ({ after with recvLen := bytes.length } : EfpgPriv).frame = bytes)
    (parsed : Parsed { after with recvLen := bytes.length } parsedTo)
    (ext : parsedTo.extCmd = .ext) :
    AnnouncesUserArea parsedTo.cmdFrame.cells := by
  have control := complete.arrived.control bytes.length
  have earlier (open' : session.efpg.extCmd = .ext) :
      AnnouncesUserArea after.cmdFrame.cells := by
    have position := recvBuf_extended isCmd open'
    rw [complete.arrived.cmdKept (by rw [position]; simp)]
    exact kept.extended complete.running open'
  cases parsed with
  | exit code => exact earlier (control.extCmd.symm.trans ext)
  | fixed op code works field type =>
      exact earlier (control.extCmd.symm.trans ext)
  | announce op code works type len normal mark =>
      rw [frame] at code type len mark
      have kind := control.extCmd.symm.trans normal
      have position := recvBuf_command isCmd kind
      have whole := whole_of_complete (kept.waiting complete.running) isCmd
        complete.arrived complete.all
      rw [position] at whole
      have stored := complete.arrived.command position whole
      change AnnouncesUserArea after.cmdFrame.cells
      rw [stored]
      exact
        { whole := whole
          intact := intact
          works := ⟨op, code, works⟩
          type := type
          len := len
          mark := mark }
  | extended => cases ext

theorem announces_of_data (kept : CommandKept session)
    (complete : Complete session turn bytes after)
    (isCmd : session.efpg.isCmd = true) {parsedTo : EfpgPriv}
    (parsed : Parsed { after with recvLen := bytes.length } parsedTo)
    (normal : parsedTo.extCmd = .normal) (op : parsedTo.op = .write)
    (field : parsedTo.field = .ua) :
    AnnouncesUserArea parsedTo.cmdFrame.cells := by
  have control := complete.arrived.control bytes.length
  cases parsed with
  | exit code => cases op
  | fixed op code works other type =>
      exact absurd field (fixedType_len type 0).2.2.2
  | announce => cases normal
  | extended op code works type ext =>
      have open' := control.extCmd.symm.trans ext
      have position := recvBuf_extended isCmd open'
      change AnnouncesUserArea after.cmdFrame.cells
      rw [complete.arrived.cmdKept (by rw [position]; simp)]
      exact kept.extended complete.running open'

end Complete

theorem commandKept_turn (sha256 : Sha256) (arch : ChipArchVer)
    (session : Session) (turn : Turn) (kept : CommandKept session) :
    CommandKept (efpgTurn sha256 arch session turn) := by
  have wellFormed := wellFormed_turn sha256 arch session turn kept.waiting
  have turned := efpgTurn_turned sha256 arch session turn
  generalize efpgTurn sha256 arch session turn = next at turned wellFormed ⊢
  cases turned with
  | idle nothing => exact kept
  | failed running broken =>
      exact commandKept_of_reset wellFormed (fun stopped => nomatch stopped)
        (fun stopped => nomatch stopped)
  | overrun running bytes arrives past =>
      exact commandKept_of_reset wellFormed (fun ended => nomatch ended)
        (fun ended => nomatch ended)
  | short running bytes arrives after arrived partly =>
      exact commandKept_of_reset wellFormed (fun _ => rfl) (fun _ => rfl)
  | complete running bytes arrives after arrived all =>
      have complete : Complete session turn bytes after :=
        { running := running
          arrives := arrives
          arrived := arrived
          all := all }
      have control := arrived.control bytes.length
      let p := efpgProcess sha256 arch turn
        { after with recvLen := bytes.length } session.dev
      cases isCmd : session.efpg.isCmd with
      | false =>
          have reset : p.state = .reset :=
            arrived.reset_data sha256 arch turn _ _ isCmd
          have goto := goto_of_reset reset
          refine commandKept_of_reset wellFormed (fun _ => ?_) (fun _ => ?_)
          · change p.goto.2.extCmd = _
            rw [goto]
            rfl
          · change p.goto.2.isCmd = _
            rw [goto]
            rfl
      | true =>
          have answered : Answered sha256 arch turn
              { after with recvLen := bytes.length } session.dev p :=
            arrived.answered_command sha256 arch turn _ _ isCmd
          have whole := whole_of_complete (kept.waiting running) isCmd arrived
            all
          have frame := arrived.frame isCmd whole
          have taken : ({ after with recvLen := bytes.length } :
              EfpgPriv).frame.take bytes.length = bytes := by
            rw [frame, List.take_length]
          refine { waiting := wellFormed, extended := ?_, data := ?_ }
          · intro goesOn ext
            have position : p.goto.2.recvBuf = .extCmdFrame := by
              cases wellFormed goesOn with
              | command _ normal =>
                  exact absurd (normal.symm.trans ext) (by simp)
              | extended isCmd ext _ => exact recvBuf_extended isCmd ext
              | data _ normal =>
                  exact absurd (normal.symm.trans ext) (by simp)
            obtain ⟨parsedTo, parsed, stays, intact, sent, same⟩ :=
              answered_awaitsExtended answered goesOn position
            have next : p.state = .cont := by
              rw [same]
              exact acknowledged_sent sent
            change efpgChecksum8 (({ after with recvLen := bytes.length } :
              EfpgPriv).frame.take bytes.length) = _ at intact
            rw [taken] at intact
            have announces := announces_of_extended kept complete isCmd intact
              frame parsed stays
            change AnnouncesUserArea p.goto.2.cmdFrame.cells
            rw [goto_of_cont next, same]
            exact announces
          · intro goesOn awaits field
            obtain ⟨parsedTo, parsed, stays, op, intact, sent, same⟩ :=
              answered_data answered (control.isCmd.trans isCmd) awaits
            have next : p.state = .cont := by
              rw [same]
              exact acknowledged_sent sent
            change p.goto.2.field = .ua at field
            rw [goto_of_cont next, same] at field
            have announces := announces_of_data kept complete isCmd parsed stays
              op field
            change AnnouncesUserArea p.goto.2.cmdFrame.cells
            rw [goto_of_cont next, same]
            exact announces

theorem commandKept_run (sha256 : Sha256) (arch : ChipArchVer) (efpg : EfpgPriv)
    (dev : Device) (turns : List Turn) :
    CommandKept (run (efpgTurn sha256 arch) (Session.start efpg dev) turns) := by
  apply run_invariant CommandKept
  · intro session turn kept
    exact commandKept_turn sha256 arch session turn kept
  · exact commandKept_of_reset (wellFormed_start efpg dev) (fun _ => rfl)
      (fun _ => rfl)

theorem authorized_of_written {sha256 : Sha256} {arch : ChipArchVer}
    {key cmdFrame frame : List Byte} {write : FieldWrite}
    (written : UserAreaWritten sha256 arch key cmdFrame frame write) :
    Authorized sha256 key cmdFrame frame := by
  obtain ⟨efpg, dev, turns, turn, sameKey, sameCmd, received, field, exchange,
    trace, member⟩ := written
  have kept := commandKept_run sha256 arch efpg dev turns
  generalize run (efpgTurn sha256 arch) (Session.start efpg dev) turns =
    session at *
  have turned := efpgTurn_turned sha256 arch session turn
  generalize efpgTurn sha256 arch session turn = next at turned trace
  cases turned with
  | idle nothing => exact absurd trace.symm (List.cons_ne_self _ _)
  | failed running broken => exact absurd trace.symm (List.cons_ne_self _ _)
  | overrun running bytes arrives past =>
      obtain ⟨rfl, -⟩ := List.cons.inj trace
      cases member
  | short running bytes arrives after arrived partly =>
      obtain ⟨rfl, -⟩ := List.cons.inj trace
      cases member
  | complete running bytes arrives after arrived all =>
      rw [received] at arrives
      obtain rfl := Option.some.inj arrives
      obtain ⟨rfl, -⟩ := List.cons.inj trace
      have control := arrived.control frame.length
      change .writeField write ∈ (efpgProcess sha256 arch turn
        { after with recvLen := frame.length } session.dev).calls at member
      cases isCmd : session.efpg.isCmd with
      | true =>
          exact absurd member (answered_calls
            (arrived.answered_command sha256 arch turn _ _ isCmd) write)
      | false =>
          rw [arrived.process_data sha256 arch turn _ _ isCmd] at member
          obtain ⟨accepted, same⟩ :=
            (efpgDataFrameProcess_calls sha256 arch turn _ session.dev
              write).mp member
          obtain ⟨-, digest⟩ :=
            (efpgCheckMsgDgst_iff isCmd arrived).mp accepted
          rw [same] at field
          have announces := kept.data running isCmd
            (control.field.symm.trans field)
          have fits := arrived.fits
          rw [recvBuf_data isCmd] at fits
          rw [sameKey, sameCmd] at digest
          rw [sameCmd] at announces
          exact
            { announces := announces
              holdsDigest := digest.holdsPayload
              fits := fits
              keyed := digest.keyed
              digest := digest }

/-! ### Any target can be reached -/

theorem u16At_le16 (before after : List Byte) (value : Nat)
    (small : value < 65536) :
    u16At (before ++ (le16 value ++ after)) before.length = value := by
  unfold u16At le16
  simp only [List.getD_eq_getElem?_getD]
  rw [List.getElem?_append_right (Nat.le_refl _),
    List.getElem?_append_right (Nat.le_add_right _ 1), Nat.sub_self,
    Nat.add_sub_cancel_left]
  simp only [List.cons_append, List.nil_append, List.getElem?_cons_zero,
    List.getElem?_cons_succ, Option.getD_some, BitVec.toNat_ofNat]
  omega

structure OpensWrite (frame : List Byte) (start bitLength : Nat) : Prop where
  whole : frame.length = efpgUserAreaExtLen
  intact : efpgChecksum8 frame = 0xFF
  code : opOfCode (u16At frame 0) = some .write
  type : u16At frame 2 = efpgTypeUserArea
  start : u16At frame 8 = start
  bits : u16At frame 10 = bitLength

theorem extendedFrame_opensWrite (start bitLength : Nat)
    (startSmall : start < 65536) (bitsSmall : bitLength < 65536) :
    OpensWrite (extendedFrame 0xF00F efpgTypeUserArea 0 start bitLength) start
      bitLength := by
  let body := le16 0xF00F ++ le16 efpgTypeUserArea ++ le16 0 ++ le16 0 ++
    le16 start ++ le16 bitLength
  have length : body.length = 12 := rfl
  have field (offset : Nat) (inside : offset + 1 < 12) :
      u16At (extendedFrame 0xF00F efpgTypeUserArea 0 start bitLength) offset =
        u16At body offset := u16At_sealFrame body offset inside
  have code : u16At body 0 = 0xF00F :=
    u16At_le16 [] (le16 efpgTypeUserArea ++ le16 0 ++ le16 0 ++ le16 start ++
      le16 bitLength) 0xF00F (by decide)
  have type : u16At body 2 = efpgTypeUserArea :=
    u16At_le16 (le16 0xF00F) (le16 0 ++ le16 0 ++ le16 start ++ le16 bitLength)
      efpgTypeUserArea (by decide)
  have startAt : u16At body 8 = start :=
    u16At_le16 (le16 0xF00F ++ le16 efpgTypeUserArea ++ le16 0 ++ le16 0)
      (le16 bitLength) start startSmall
  have bitsAt : u16At body 10 = bitLength :=
    u16At_le16 (le16 0xF00F ++ le16 efpgTypeUserArea ++ le16 0 ++ le16 0 ++
      le16 start) [] bitLength bitsSmall
  exact
    { whole := by
        unfold extendedFrame
        rw [sealFrame_length]
        rfl
      intact := efpgChecksum8_sealFrame body
      code := by
        rw [field 0 (by decide), code]
        decide
      type := (field 2 (by decide)).trans type
      start := (field 8 (by decide)).trans startAt
      bits := (field 10 (by decide)).trans bitsAt }

structure AwaitsExtended (session : Session) (key cmdFrame : List Byte) :
    Prop where
  running : session.phase = .running
  isCmd : session.efpg.isCmd = true
  ext : session.efpg.extCmd = .ext
  len : session.efpg.exptLen = efpgUserAreaExtLen
  key : session.efpg.key = key
  cmdFrame : session.efpg.cmdFrame.cells = cmdFrame

structure AwaitsData (session : Session) (key cmdFrame : List Byte)
    (start bitLength : Nat) : Prop where
  running : session.phase = .running
  isData : session.efpg.isCmd = false
  normal : session.efpg.extCmd = .normal
  len : session.efpg.exptLen = userAreaFrameLen bitLength
  field : session.efpg.field = .ua
  start : session.efpg.startBitAddr = start
  bits : session.efpg.bitLength = bitLength
  key : session.efpg.key = key
  cmdFrame : session.efpg.cmdFrame.cells = cmdFrame

theorem bytes_receive {bytes : List Byte} {count : Nat}
    (all : bytes.length = count) :
    (Turn.receive bytes).bytes count = some bytes := by
  unfold Turn.bytes Turn.receive
  rw [← all]
  exact congrArg some List.take_length

section Reachable

variable {sha256 : Sha256} {arch : ChipArchVer} {session : Session}
  {key cmdFrame : List Byte}

theorem awaitsExtended_turn (running : session.phase = .running)
    (waiting : Waiting session.efpg) (isCmd : session.efpg.isCmd = true)
    (normal : session.efpg.extCmd = .normal) (sameKey : session.efpg.key = key)
    (announces : AnnouncesUserArea cmdFrame) :
    AwaitsExtended
      (efpgTurn sha256 arch session (Turn.receive cmdFrame)) key cmdFrame := by
  have buf := recvBuf_command isCmd normal
  have len : session.efpg.exptLen = efpgCmdFrameLen := by
    cases waiting with
    | command _ _ len => exact len
    | extended _ ext => exact absurd (normal.symm.trans ext) (by simp)
    | data isData => exact absurd (isCmd.symm.trans isData) (by simp)
  have all : cmdFrame.length = session.efpg.exptLen :=
    announces.whole.trans len.symm
  have fits : cmdFrame.length ≤ session.efpg.recvBuf.size := by
    rw [buf]
    exact Nat.le_of_eq announces.whole
  obtain ⟨after, complete, turned⟩ := efpgTurn_complete sha256 arch running
    waiting (bytes_receive all) all fits
  have control := complete.arrived.control cmdFrame.length
  have stored := complete.arrived.command buf announces.whole
  have frame := complete.arrived.frame isCmd
    (whole_of_complete waiting isCmd complete.arrived complete.all)
  obtain ⟨op, code, works⟩ := announces.works
  let current : EfpgPriv := { after with recvLen := cmdFrame.length }
  have sameFrame : current.frame = cmdFrame := frame
  have taken : current.frame.take current.recvLen = cmdFrame := by
    rw [sameFrame]
    exact List.take_length
  have parsed : Parsed current _ :=
    Parsed.announce op (by rw [sameFrame]; exact code) works
      (by rw [sameFrame]; exact announces.type)
      (by rw [sameFrame]; exact announces.len) (control.extCmd.trans normal)
      (by rw [sameFrame]; exact announces.mark)
  have command : efpgCmdFrameProcess sha256 arch (Turn.receive cmdFrame)
      current session.dev = _ :=
    efpgCmdFrameProcess_extended (by rw [taken]; exact announces.intact) parsed
      rfl
  have process : efpgProcess sha256 arch (Turn.receive cmdFrame) current
      session.dev = _ := (if_pos (control.isCmd.trans isCmd)).trans command
  rw [turned, process]
  exact
    { running := rfl
      isCmd := rfl
      ext := rfl
      len := rfl
      key := control.key.trans sameKey
      cmdFrame := stored }

theorem awaitsData_turn {frame : List Byte} {start bitLength : Nat}
    (awaits : AwaitsExtended session key cmdFrame)
    (opens : OpensWrite frame start bitLength) :
    AwaitsData (efpgTurn sha256 arch session (Turn.receive frame)) key cmdFrame
      start bitLength := by
  have buf := recvBuf_extended awaits.isCmd awaits.ext
  have waiting : Waiting session.efpg :=
    Waiting.extended awaits.isCmd awaits.ext (Or.inl awaits.len)
  have all : frame.length = session.efpg.exptLen :=
    opens.whole.trans awaits.len.symm
  have fits : frame.length ≤ session.efpg.recvBuf.size := by
    rw [buf]
    exact Nat.le_of_eq opens.whole
  obtain ⟨after, complete, turned⟩ := efpgTurn_complete sha256 arch
    awaits.running waiting (bytes_receive all) all fits
  have control := complete.arrived.control frame.length
  have kept := complete.arrived.cmdKept (by rw [buf]; simp)
  let current : EfpgPriv := { after with recvLen := frame.length }
  have sameFrame : current.frame = frame :=
    complete.arrived.frame awaits.isCmd
      (whole_of_complete waiting awaits.isCmd complete.arrived complete.all)
  have taken : current.frame.take current.recvLen = frame := by
    rw [sameFrame]
    exact List.take_length
  have parsed : Parsed current _ :=
    Parsed.extended .write (by rw [sameFrame]; exact opens.code) (Or.inr rfl)
      (by rw [sameFrame]; exact opens.type) (control.extCmd.trans awaits.ext)
  have command : efpgCmdFrameProcess sha256 arch (Turn.receive frame) current
      session.dev = _ :=
    efpgCmdFrameProcess_write (by rw [taken]; exact opens.intact) parsed rfl rfl
  have process : efpgProcess sha256 arch (Turn.receive frame) current
      session.dev = _ :=
    (if_pos (control.isCmd.trans awaits.isCmd)).trans command
  have start' : u16At current.frame 8 = start := by
    rw [sameFrame]
    exact opens.start
  have bits' : u16At current.frame 10 = bitLength := by
    rw [sameFrame]
    exact opens.bits
  rw [turned, process]
  exact
    { running := rfl
      isData := rfl
      normal := rfl
      len := congrArg userAreaFrameLen bits'
      field := rfl
      start := start'
      bits := bits'
      key := control.key.trans awaits.key
      cmdFrame := (congrArg Buffer.cells kept).trans awaits.cmdFrame }

variable (arch) in
/-- An authorized data frame is written to the fuses the session waits to
write. -/
theorem writes_turn {frame : List Byte} {start bitLength : Nat}
    (awaits : AwaitsData session key cmdFrame start bitLength)
    (all : frame.length = userAreaFrameLen bitLength)
    (authorized : Authorized sha256 key cmdFrame frame) :
    ∃ exchange write,
      (efpgTurn sha256 arch session (Turn.receive frame)).trace =
          exchange :: session.trace ∧
        .writeField write ∈ exchange.calls ∧ write.field = .ua ∧
          write.startBitAddr = start ∧ write.bitLength = bitLength := by
  have buf := recvBuf_data awaits.isData
  have waiting : Waiting session.efpg := by
    refine Waiting.data awaits.isData awaits.normal ?_
    rw [awaits.len, awaits.field, awaits.bits, userAreaFrameLen_eq]
  have asked : frame.length = session.efpg.exptLen := all.trans awaits.len.symm
  have fits : frame.length ≤ session.efpg.recvBuf.size := by
    rw [buf]
    exact authorized.fits
  obtain ⟨after, complete, turned⟩ := efpgTurn_complete sha256 arch
    awaits.running waiting (bytes_receive asked) asked fits
  have control := complete.arrived.control frame.length
  let current : EfpgPriv := { after with recvLen := frame.length }
  have process : efpgProcess sha256 arch (Turn.receive frame) current
      session.dev = efpgDataFrameProcess sha256 arch (Turn.receive frame)
        current session.dev :=
    complete.arrived.process_data sha256 arch _ _ _ awaits.isData
  have digest : DigestMatches sha256 session.efpg.key
      session.efpg.cmdFrame.cells frame := by
    rw [awaits.key, awaits.cmdFrame]
    exact authorized.digest
  have accepted : efpgCheckMsgDgst sha256 (Turn.receive frame) current = true :=
    (efpgCheckMsgDgst_iff awaits.isData complete.arrived).mpr ⟨rfl, digest⟩
  have written := (efpgDataFrameProcess_calls sha256 arch (Turn.receive frame)
    current session.dev _).mpr ⟨accepted, rfl⟩
  rw [turned, process]
  exact ⟨_, _, rfl, written, control.field.trans awaits.field,
    control.startBitAddr.trans awaits.start,
    control.bitLength.trans awaits.bits⟩

/-- With an extended frame of its own choice, an attacker directs an authorized
write to any start and to any bit length that fills as many bytes. -/
theorem userAreaWritten_of_authorized (arch : ChipArchVer) {frame : List Byte}
    (authorized : Authorized sha256 key cmdFrame frame)
    (start bitLength : Nat) (startSmall : start < 65536)
    (all : frame.length = userAreaFrameLen bitLength) :
    ∃ write, UserAreaWritten sha256 arch key cmdFrame frame write ∧
      write.startBitAddr = start ∧ write.bitLength = bitLength := by
  have bitsSmall : bitLength < 65536 := by
    have fits := authorized.fits
    rw [all, userAreaFrameLen_eq] at fits
    change (bitLength + 7) / 8 + efpgMsgDgstLen ≤ 76 + efpgMsgDgstLen at fits
    omega
  let first := Session.start (zeroedEfpg key) blankDevice
  let turns := [Turn.receive cmdFrame,
    Turn.receive (extendedFrame 0xF00F efpgTypeUserArea 0 start bitLength)]
  have ext : AwaitsExtended
      (efpgTurn sha256 arch first (Turn.receive cmdFrame)) key cmdFrame :=
    awaitsExtended_turn rfl (waiting_reset _) rfl rfl rfl authorized.announces
  have data : AwaitsData (run (efpgTurn sha256 arch) first turns) key cmdFrame
      start bitLength :=
    awaitsData_turn ext (extendedFrame_opensWrite start bitLength startSmall
      bitsSmall)
  obtain ⟨exchange, write, trace, member, field, sameStart, sameBits⟩ :=
    writes_turn arch data all authorized
  have received : (Turn.receive frame).bytes
      (run (efpgTurn sha256 arch) first turns).efpg.exptLen = some frame :=
    bytes_receive (all.trans data.len.symm)
  exact ⟨write, ⟨zeroedEfpg key, blankDevice, turns, Turn.receive frame,
    data.key, data.cmdFrame, received, field, exchange, trace, member⟩,
    sameStart, sameBits⟩

end Reachable

/-- For every key, command frame and data frame, the authorization determines
the fuses exactly if there is no authorization: every authorized write can be
directed to two different places. -/
theorem authorizationCoversTarget_iff (sha256 : Sha256) (arch : ChipArchVer)
    (key cmdFrame frame : List Byte) :
    AuthorizationCoversTarget sha256 arch key cmdFrame frame ↔
      ¬ Authorized sha256 key cmdFrame frame := by
  constructor
  · intro covers authorized
    have all : frame.length =
        userAreaFrameLen (8 * (frame.length - efpgMsgDgstLen)) := by
      have long := authorized.holdsDigest
      rw [userAreaFrameLen_eq]
      change frame.length = (8 * (frame.length - efpgMsgDgstLen) + 7) / 8 +
        efpgMsgDgstLen
      omega
    obtain ⟨first, firstWritten, firstStart, -⟩ :=
      userAreaWritten_of_authorized arch authorized 0 _ (by decide) all
    obtain ⟨second, secondWritten, secondStart, -⟩ :=
      userAreaWritten_of_authorized arch authorized 1 _ (by decide) all
    have same := (covers first second firstWritten secondWritten).1
    rw [firstStart, secondStart] at same
    cases same
  · intro unauthorized first second written
    exact absurd (authorized_of_written written) unauthorized

/-- A payload with the digest the host computes for it. -/
def signFrame (sha256 : Sha256) (key cmdFrame payload : List Byte) :
    List Byte :=
  payload ++ toBytes (sha256 (cmdFrame ++ payload ++ key))

theorem signFrame_length (sha256 : Sha256) (key cmdFrame payload : List Byte) :
    (signFrame sha256 key cmdFrame payload).length =
      payload.length + efpgMsgDgstLen := by
  unfold signFrame
  rw [List.length_append, toBytes_length]
  rfl

/-- The device accepts what the host signed if the payload fills whole words. -/
theorem signFrame_digest (sha256 : Sha256) {key cmdFrame payload : List Byte}
    (whole : cmdFrame.length = efpgCmdFrameLen)
    (some : payload ≠ []) (words : payload.length % 4 = 0)
    (fits : payload.length ≤ 76) (keyed : key ≠ [])
    (short : key.length ≤ 64) :
    DigestMatches sha256 key cmdFrame
      (signFrame sha256 key cmdFrame payload) := by
  change _ = 8 at whole
  let chunks : List CeChunk :=
    [{ data := cmdFrame
       nonempty := List.ne_nil_of_length_pos (by omega)
       uint32 := by omega },
     { data := payload, nonempty := some, uint32 := by omega },
     { data := key, nonempty := keyed, uint32 := by omega }]
  have completes : Along (CeSession.step .sha256) Completes
      (CeSession.start .zero) chunks := by
    refine completes_of_words chunks _ rfl ?_
    intro chunk member
    rcases List.mem_cons.mp member with rfl | later
    · change cmdFrame.length % 4 = 0
      omega
    · obtain rfl := List.mem_singleton.mp later
      exact words
  have hashed := hashedMessage_of_completes chunks completes
  refine ⟨cmdFrame ++ payload ++ key, ?_, ?_⟩
  · rw [signFrame_length, Nat.add_sub_cancel]
    unfold signFrame
    rw [List.take_left' rfl]
    refine hashed.trans (congrArg Option.some ?_)
    change cmdFrame ++ (payload ++ (key ++ [])) = _
    rw [List.append_nil, List.append_assoc]
  · rw [signFrame_length, Nat.add_sub_cancel]
    unfold signFrame
    rw [List.drop_left' rfl]

/-- Four signed bytes, whatever the hash function: they can be written to 32
fuses from start 0 or from start 8. -/
theorem signedWord_redirected :
    ¬ ∃ sha256 : Sha256,
      AuthorizationCoversTarget sha256 .two (List.replicate 4 0x5A)
        (userAreaCommand 0xF00F)
        (signFrame sha256 (List.replicate 4 0x5A) (userAreaCommand 0xF00F)
          (List.replicate 4 0xFF)) := by
  rintro ⟨sha256, covers⟩
  have announces : AnnouncesUserArea (userAreaCommand 0xF00F) :=
    { whole := by decide +kernel
      intact := efpgChecksum8_sealFrame _
      works := ⟨.write, by decide +kernel, Or.inr rfl⟩
      type := by decide +kernel
      len := by decide +kernel
      mark := by decide +kernel }
  have length := signFrame_length sha256 (List.replicate 4 0x5A)
    (userAreaCommand 0xF00F) (List.replicate 4 0xFF)
  have authorized : Authorized sha256 (List.replicate 4 0x5A)
      (userAreaCommand 0xF00F) (signFrame sha256 (List.replicate 4 0x5A)
        (userAreaCommand 0xF00F) (List.replicate 4 0xFF)) :=
    { announces := announces
      holdsDigest := by rw [length]; decide
      fits := by rw [length]; decide
      keyed := by decide
      digest := signFrame_digest sha256 announces.whole (by decide)
        (by decide) (by decide) (by decide) (by decide) }
  have all : (signFrame sha256 (List.replicate 4 0x5A)
      (userAreaCommand 0xF00F) (List.replicate 4 0xFF)).length =
        userAreaFrameLen 32 := length
  obtain ⟨first, firstWritten, firstStart, -⟩ :=
    userAreaWritten_of_authorized .two authorized 0 32 (by decide) all
  obtain ⟨second, secondWritten, secondStart, -⟩ :=
    userAreaWritten_of_authorized .two authorized 8 32 (by decide) all
  have same := (covers first second firstWritten secondWritten).1
  rw [firstStart, secondStart] at same
  cases same

end XR872.Efpg
