/-
The receive buffers of the fuse programming session.

The parser computes how many bytes to ask for, and `efpg_task` chooses the
buffer from two other fields. They agree except after an extended frame that
carries a type of fixed length, which leaves the extended buffer selected, and
after one that announces a user area write longer than the data buffer.
-/

import XR872.Efpg.TaskSpec

namespace XR872.Efpg

open BitView
open Buffers
open Chip.Efuse
open Runs

/-! ### The property -/

/-- The call to `HAL_UART_Receive_IT` that the task makes next asks for no more
than its buffer holds. -/
def RequestFits (session : Session) : Prop :=
  session.phase = .running →
    session.efpg.exptLen ≤ session.efpg.recvBuf.size

def ReadsFit (calls : List Call) : Prop :=
  ∀ field startBitAddr bitLength stored room,
    Call.readField field startBitAddr bitLength stored room ∈ calls →
      stored.length ≤ room

structure BuffersFit (session : Session) : Prop where
  request : RequestFits session
  reads : ∀ exchange ∈ session.trace, ReadsFit exchange.calls

/-- An extended frame with a type of fixed length and its length, or a user area
write of more than 608 bits. -/
def Oversized (frame : List Byte) : Prop :=
  (∃ op, opOfCode (u16At frame 0) = some op ∧ (op = .read ∨ op = .write) ∧
      ∃ field, fixedType (u16At frame 2) = some (field, u16At frame 4)) ∨
    (opOfCode (u16At frame 0) = some .write ∧
      u16At frame 2 = efpgTypeUserArea ∧ 608 < u16At frame 10)

/-- The task waits for an extended frame, and an intact oversized one arrives
and is acknowledged. -/
structure TakesOversized (session : Session) (turn : Turn) : Prop where
  running : session.phase = .running
  position : session.efpg.recvBuf = .extCmdFrame
  frame : ∃ frame, turn.bytes efpgUserAreaExtLen = some frame ∧
    frame.length = efpgUserAreaExtLen ∧ efpgChecksum8 frame = 0xFF ∧
      Oversized frame
  acknowledged : turn.ackSent = true

/-! ### Handlers -/

theorem requestFits_reset (efpg : EfpgPriv) :
    (efpgReset efpg).exptLen ≤ (efpgReset efpg).recvBuf.size :=
  Nat.le_refl efpgCmdFrameLen

theorem readsFit_of_none {calls : List Call}
    (none : ∀ field startBitAddr bitLength stored room,
      Call.readField field startBitAddr bitLength stored room ∉ calls) :
    ReadsFit calls := fun field startBitAddr bitLength stored room member =>
  absurd member (none field startBitAddr bitLength stored room)

theorem efpgReadProcess_readsFit (sha256 : Sha256) (arch : ChipArchVer)
    (turn : Turn) (efpg : EfpgPriv) (dev : Device)
    (len : efpg.exptLen =
      fieldBytes efpg.field efpg.bitLength + efpgMsgDgstLen) :
    ReadsFit (efpgReadProcess sha256 arch turn efpg dev).calls := by
  have stored := efpgReadField_length_le arch efpg.field efpg.startBitAddr
    efpg.bitLength dev
  have room : efpg.exptLen - efpgMsgDgstLen =
      fieldBytes efpg.field efpg.bitLength := by
    rw [len, Nat.add_sub_cancel]
  intro field startBitAddr bitLength bytes space member
  unfold efpgReadProcess at member
  split at member
  · cases member
  · have first : Call.readField field startBitAddr bitLength bytes space =
        Call.readField efpg.field efpg.startBitAddr efpg.bitLength
          (efpgReadField arch efpg.field efpg.startBitAddr efpg.bitLength
            dev).stored (efpg.exptLen - efpgMsgDgstLen) := by
      dsimp only at member
      split at member
      · simpa using member
      · split at member <;> simpa using member
    cases first
    rw [room]
    exact stored

theorem efpgDataFrameProcess_readsFit (sha256 : Sha256) (arch : ChipArchVer)
    (turn : Turn) (efpg : EfpgPriv) (dev : Device) :
    ReadsFit (efpgDataFrameProcess sha256 arch turn efpg dev).calls := by
  apply readsFit_of_none
  intro field startBitAddr bitLength stored room
  unfold efpgDataFrameProcess
  split <;> simp

/-- What a handler's answer asks for next. -/
def NextFits (p : Processed) : Prop :=
  p.goto.1 = .running → p.goto.2.exptLen ≤ p.goto.2.recvBuf.size

theorem nextFits_of_reset {p : Processed} (state : p.state = .reset) :
    NextFits p := by
  intro _
  rw [goto_of_reset state]
  exact requestFits_reset p.efpg

theorem efpgExtCmdProcess_nextFits (turn : Turn) (after : EfpgPriv)
    (dev : Device) (ext : after.extCmd = .ext) :
    NextFits (efpgExtCmdProcess turn after dev) ↔
      (turn.ackSent = true → after.exptLen ≤ efpgUserAreaExtLen) := by
  cases sent : turn.ackSent with
  | false =>
      have state : (efpgExtCmdProcess turn after dev).state = .reset :=
        acknowledged_failed sent
      exact iff_of_true (nextFits_of_reset state) fun sent => nomatch sent
  | true =>
      have state : (efpgExtCmdProcess turn after dev).state = .cont :=
        acknowledged_sent sent
      have buf : (efpgExtCmdProcess turn after dev).efpg.recvBuf =
          .extCmdFrame := recvBuf_extended rfl ext
      unfold NextFits
      rw [goto_of_cont state]
      dsimp only
      rw [buf]
      exact ⟨fun fits _ => fits rfl, fun fits _ => fits rfl⟩

theorem efpgWriteProcess_nextFits (turn : Turn) (after : EfpgPriv)
    (dev : Device) :
    NextFits (efpgWriteProcess turn after dev) ↔
      (turn.ackSent = true → after.exptLen ≤ efpgDataFrameLenMax) := by
  cases sent : turn.ackSent with
  | false =>
      have state : (efpgWriteProcess turn after dev).state = .reset :=
        acknowledged_failed sent
      exact iff_of_true (nextFits_of_reset state) fun sent => nomatch sent
  | true =>
      have state : (efpgWriteProcess turn after dev).state = .cont :=
        acknowledged_sent sent
      have buf : (efpgWriteProcess turn after dev).efpg.recvBuf = .dataFrame :=
        recvBuf_data rfl
      unfold NextFits
      rw [goto_of_cont state]
      dsimp only
      rw [buf]
      exact ⟨fun fits _ => fits rfl, fun fits _ => fits rfl⟩

theorem efpgStopProcess_nextFits (turn : Turn) (after : EfpgPriv)
    (dev : Device) : NextFits (efpgStopProcess turn after dev) := by
  cases sent : turn.ackSent with
  | false =>
      have state : (efpgStopProcess turn after dev).state = .reset :=
        acknowledged_failed sent
      exact nextFits_of_reset state
  | true =>
      have state : (efpgStopProcess turn after dev).state = .stop :=
        acknowledged_sent sent
      intro running
      rw [goto_of_stop state] at running
      cases running

theorem answered_normal {sha256 : Sha256} {arch : ChipArchVer} {turn : Turn}
    {efpg : EfpgPriv} {dev : Device} {p : Processed}
    (normal : efpg.extCmd = .normal)
    (answered : Answered sha256 arch turn efpg dev p) : NextFits p := by
  have notExt : efpg.extCmd ≠ .ext := by
    rw [normal]
    simp
  cases answered with
  | badChecksum wrong => exact nextFits_of_reset rfl
  | badCommand intact unknown after => exact nextFits_of_reset rfl
  | extended intact after parsed ext =>
      rw [efpgExtCmdProcess_nextFits _ _ _ ext]
      intro _
      cases parsed with
      | exit code => exact absurd ext notExt
      | fixed op code works field type => exact absurd ext notExt
      | announce => exact Nat.le_refl efpgUserAreaExtLen
      | extended => cases ext
  | read intact after parsed _ op =>
      exact nextFits_of_reset (efpgReadProcess_state sha256 arch turn after dev)
  | write intact after parsed stays op =>
      rw [efpgWriteProcess_nextFits]
      intro _
      cases parsed with
      | exit code => cases op
      | fixed op code works field type =>
          have short := (fixedType_len type 0).2.2.1
          exact Nat.le_trans short (by decide)
      | announce => cases stays
      | extended op code works type ext => exact absurd ext notExt
  | exit intact after parsed _ op => exact efpgStopProcess_nextFits turn after dev

theorem not_oversized_of_exit {frame : List Byte}
    (code : opOfCode (u16At frame 0) = some .exit) : ¬ Oversized frame := by
  rintro (⟨op, working, works, -⟩ | ⟨writes, -⟩)
  · rw [code] at working
    rcases works with rfl | rfl <;> cases working
  · rw [code] at writes
    cases writes

theorem oversized_userArea_iff {frame : List Byte} {op : EfpgOp}
    (code : opOfCode (u16At frame 0) = some op)
    (type : u16At frame 2 = efpgTypeUserArea) :
    Oversized frame ↔ op = .write ∧ 608 < u16At frame 10 := by
  constructor
  · rintro (⟨-, -, -, field, fixed⟩ | ⟨writes, -, long⟩)
    · rw [type, fixedType_userArea] at fixed
      cases fixed
    · rw [code] at writes
      exact ⟨Option.some.inj writes, long⟩
  · rintro ⟨rfl, long⟩
    exact Or.inr ⟨code, type, long⟩

theorem userAreaFrameLen_le_iff (bitLength : Nat) :
    userAreaFrameLen bitLength ≤ efpgDataFrameLenMax ↔ bitLength ≤ 608 := by
  have bytes : fieldBytes .ua bitLength = (bitLength + 7) / 8 := rfl
  have limit : efpgDataFrameLenMax = 76 + efpgMsgDgstLen := rfl
  rw [userAreaFrameLen_eq, bytes, limit]
  omega

/-- The answer to an extended frame asks for too much exactly if the frame is
intact, oversized and acknowledged. -/
theorem answered_extended {sha256 : Sha256} {arch : ChipArchVer} {turn : Turn}
    {efpg : EfpgPriv} {dev : Device} {p : Processed}
    (ext : efpg.extCmd = .ext) (len : efpg.exptLen = efpgUserAreaExtLen)
    (answered : Answered sha256 arch turn efpg dev p) :
    NextFits p ↔
      ¬ (efpgChecksum8 (efpg.frame.take efpg.recvLen) = 0xFF ∧
        Oversized efpg.frame ∧ turn.ackSent = true) := by
  have notNormal : efpg.extCmd ≠ .normal := by
    rw [ext]
    simp
  cases answered with
  | badChecksum wrong =>
      exact iff_of_true (nextFits_of_reset rfl) fun big => wrong big.1
  | badCommand intact unknown after =>
      refine iff_of_true (nextFits_of_reset rfl) ?_
      rintro ⟨-, ⟨op, code, works, field, type⟩ | ⟨code, type, -⟩, -⟩
      · exact unknown _ (Parsed.fixed op code works field type)
      · exact unknown _ (Parsed.extended .write code (Or.inr rfl) type ext)
  | extended intact after parsed stays =>
      rw [efpgExtCmdProcess_nextFits _ _ _ stays]
      cases parsed with
      | exit code =>
          exact iff_of_true (fun _ => Nat.le_of_eq len) fun big =>
            not_oversized_of_exit code big.2.1
      | fixed op code works field type =>
          have long := (fixedType_len type 0).2.1
          have tooLong : ¬ u16At efpg.frame 4 ≤ efpgUserAreaExtLen :=
            fun short => absurd (Nat.lt_of_lt_of_le long short) (by decide)
          have big : Oversized efpg.frame :=
            Or.inl ⟨op, code, works, field, type⟩
          exact ⟨fun fits all => tooLong (fits all.2.2),
            fun small sent => absurd ⟨intact, big, sent⟩ small⟩
      | announce _ _ _ _ _ normal _ => exact absurd normal notNormal
      | extended => cases stays
  | read intact after parsed normal op =>
      refine iff_of_true (nextFits_of_reset
        (efpgReadProcess_state sha256 arch turn after dev)) fun big => ?_
      cases parsed with
      | exit code => cases op
      | fixed => exact absurd normal notNormal
      | announce => cases normal
      | extended _ code works type _ =>
          have writes := ((oversized_userArea_iff code type).mp big.2.1).1
          exact absurd (op.symm.trans writes) (by simp)
  | write intact after parsed normal op =>
      rw [efpgWriteProcess_nextFits]
      cases parsed with
      | exit code => cases op
      | fixed => exact absurd normal notNormal
      | announce => cases normal
      | extended _ code works type _ =>
          have big := oversized_userArea_iff code type
          change (_ → userAreaFrameLen _ ≤ _) ↔ _
          rw [userAreaFrameLen_le_iff, big]
          exact ⟨fun fits all => Nat.not_lt.mpr (fits all.2.2) all.2.1.2,
            fun small sent => Nat.le_of_not_lt fun long =>
              small ⟨intact, ⟨op, long⟩, sent⟩⟩
  | exit intact after parsed normal op =>
      refine iff_of_true (efpgStopProcess_nextFits turn after dev) fun big => ?_
      cases parsed with
      | exit code => exact not_oversized_of_exit code big.2.1
      | fixed => exact absurd normal notNormal
      | announce => cases normal
      | extended _ _ works _ _ => rcases works with rfl | rfl <;> cases op

theorem answered_readsFit {sha256 : Sha256} {arch : ChipArchVer} {turn : Turn}
    {efpg : EfpgPriv} {dev : Device} {p : Processed}
    (answered : Answered sha256 arch turn efpg dev p) : ReadsFit p.calls := by
  cases answered with
  | badChecksum wrong => exact readsFit_of_none (by simp)
  | badCommand intact unknown after => exact readsFit_of_none (by simp)
  | extended intact after parsed ext =>
      exact readsFit_of_none (by simp [efpgExtCmdProcess])
  | read intact after parsed normal op =>
      apply efpgReadProcess_readsFit
      exact parsed_len parsed normal fun leaves => by
        rw [op] at leaves
        cases leaves
  | write intact after parsed normal op =>
      exact readsFit_of_none (by simp [efpgWriteProcess])
  | exit intact after parsed normal op =>
      exact readsFit_of_none (by simp [efpgStopProcess])

/-! ### Turns and runs -/

theorem not_takesOversized_of_bytes {session : Session} {turn : Turn}
    {bytes : List Byte}
    (arrives : session.phase = .running →
      turn.bytes session.efpg.exptLen = some bytes)
    (len : session.efpg.recvBuf = .extCmdFrame →
      session.efpg.exptLen = efpgUserAreaExtLen)
    (partly : bytes.length ≠ session.efpg.exptLen) :
    ¬ TakesOversized session turn := by
  rintro ⟨running, position, ⟨frame, received, whole, -⟩, -⟩
  rw [← len position, arrives running] at received
  obtain rfl := Option.some.inj received
  exact partly (whole.trans (len position).symm)

/-- A request for the extended buffer that fits is for a whole extended
frame. -/
theorem exptLen_of_extended {efpg : EfpgPriv} (waiting : Waiting efpg)
    (fits : efpg.exptLen ≤ efpg.recvBuf.size)
    (position : efpg.recvBuf = .extCmdFrame) :
    efpg.exptLen = efpgUserAreaExtLen := by
  cases waiting with
  | command isCmd normal _ _ _ =>
      rw [recvBuf_command isCmd normal] at position
      cases position
  | extended _ _ len =>
      rcases len with exactly | longer
      · exact exactly
      · rw [position] at fits
        exact absurd (Nat.lt_of_lt_of_le longer fits) (by decide)
  | data isData _ _ =>
      rw [recvBuf_data isData] at position
      cases position

/-- One turn keeps every request and read inside its buffer exactly if it does
not take an oversized frame. -/
theorem buffersFit_turn (sha256 : Sha256) (arch : ChipArchVer)
    (session : Session) (turn : Turn) (wellFormed : WellFormed session)
    (fit : BuffersFit session) :
    BuffersFit (efpgTurn sha256 arch session turn) ↔
      ¬ TakesOversized session turn := by
  have turned := efpgTurn_turned sha256 arch session turn
  generalize efpgTurn sha256 arch session turn = next at turned ⊢
  cases turned with
  | idle nothing =>
      refine iff_of_true fit ?_
      rintro ⟨running, position, ⟨frame, received, whole, -⟩, -⟩
      have len := exptLen_of_extended (wellFormed running)
        (fit.request running) position
      rw [← len, nothing running] at received
      obtain rfl := Option.some.inj received
      cases whole
  | failed running broken =>
      refine iff_of_true ?_ ?_
      · exact ⟨fun stopped => (nomatch stopped), fit.reads⟩
      · rintro ⟨-, -, ⟨frame, received, -⟩, -⟩
        rw [Turn.bytes_none broken] at received
        cases received
  | overrun running bytes arrives past =>
      have fits := fit.request running
      have short := Turn.bytes_length_le arrives
      exact absurd (Nat.lt_of_lt_of_le past (Nat.le_trans short fits))
        (Nat.lt_irrefl _)
  | short running bytes arrives after arrived partly =>
      refine iff_of_true ?_ ?_
      · refine { request := fun _ => requestFits_reset after, reads := ?_ }
        intro exchange member
        rcases List.mem_cons.mp member with rfl | earlier
        · exact readsFit_of_none (by simp [exchangeOf])
        · exact fit.reads exchange earlier
      · exact not_takesOversized_of_bytes (fun _ => arrives)
          (exptLen_of_extended (wellFormed running) (fit.request running))
          partly
  | complete running bytes arrives after arrived all =>
      have waiting := wellFormed running
      have control := arrived.control bytes.length
      let current : EfpgPriv := { after with recvLen := bytes.length }
      let p := efpgProcess sha256 arch turn current session.dev
      have split : BuffersFit (processedSession session after turn bytes p) ↔
          NextFits p ∧ ReadsFit p.calls := by
        constructor
        · intro whole
          exact ⟨whole.request, whole.reads _ (List.mem_cons_self ..)⟩
        · rintro ⟨request, reads⟩
          refine { request := request, reads := ?_ }
          intro exchange member
          rcases List.mem_cons.mp member with rfl | earlier
          · exact reads
          · exact fit.reads exchange earlier
      rw [split]
      cases isCmd : session.efpg.isCmd with
      | false =>
          have process : p = efpgDataFrameProcess sha256 arch turn current
              session.dev := arrived.process_data sha256 arch turn _ _ isCmd
          rw [process]
          refine iff_of_true ⟨nextFits_of_reset
            (efpgDataFrameProcess_state sha256 arch turn current session.dev),
            efpgDataFrameProcess_readsFit sha256 arch turn current
              session.dev⟩ ?_
          rintro ⟨-, position, -⟩
          rw [recvBuf_data isCmd] at position
          cases position
      | true =>
          have process : p = efpgCmdFrameProcess sha256 arch turn current
              session.dev := arrived.process_command sha256 arch turn _ _ isCmd
          have answered := efpgCmdFrameProcess_answered sha256 arch turn
            current session.dev
          have whole := whole_of_complete waiting isCmd arrived all
          have frame := arrived.frame isCmd whole
          rw [process]
          cases kind : session.efpg.extCmd with
          | normal =>
              refine iff_of_true ⟨answered_normal
                (control.extCmd.trans kind) answered,
                answered_readsFit answered⟩ ?_
              rintro ⟨-, position, -⟩
              rw [recvBuf_command isCmd kind] at position
              cases position
          | ext =>
              have position := recvBuf_extended isCmd kind
              have len := exptLen_of_extended waiting (fit.request running)
                position
              have next := answered_extended (control.extCmd.trans kind)
                (control.exptLen.trans len) answered
              rw [and_iff_left (answered_readsFit answered), next, not_iff_not]
              have taken : current.frame.take current.recvLen = bytes := by
                rw [frame]
                exact List.take_length
              rw [taken, frame]
              constructor
              · rintro ⟨intact, big, sent⟩
                rw [len] at arrives all
                exact ⟨running, position,
                  ⟨bytes, arrives, all, intact, big⟩, sent⟩
              · rintro ⟨-, -, ⟨received, same, -, intact, big⟩, sent⟩
                rw [← len, arrives] at same
                obtain rfl := Option.some.inj same
                exact ⟨intact, big, sent⟩

/-- For every memory the session starts from and every list of turns, no request
ever exceeds its buffer and no field read its frame exactly if no oversized
extended frame is ever taken. -/
theorem buffersFit_iff (sha256 : Sha256) (arch : ChipArchVer) (efpg : EfpgPriv)
    (dev : Device) (turns : List Turn) :
    Always (efpgTurn sha256 arch) BuffersFit (Session.start efpg dev) turns ↔
      Along (efpgTurn sha256 arch)
        (fun session turn => ¬ TakesOversized session turn)
        (Session.start efpg dev) turns := by
  have start : BuffersFit (Session.start efpg dev) :=
    { request := fun _ => requestFits_reset efpg
      reads := fun _ member => nomatch member }
  apply always_iff_along BuffersFit _ WellFormed
  · intro session turn wellFormed _ _
    exact wellFormed_turn sha256 arch session turn wellFormed
  · intro session turn wellFormed fit
    exact buffersFit_turn sha256 arch session turn wellFormed fit
  · exact wellFormed_start efpg dev
  · exact start

/-- A user area read is announced, and the extended frame asks for the boot
hash. -/
def bootReadTurns : List Turn :=
  [Turn.receive (userAreaCommand 0x0FF0),
    Turn.receive (extendedFrame 0x0FF0 0xFE01 64 0 0)]

/-- The task then asks for 64 bytes into the 13-byte buffer. -/
theorem extendedBootRead_overflows :
    (run (efpgTurn (fun _ => 0) .two)
          (Session.start (zeroedEfpg []) blankDevice)
          bootReadTurns).efpg.exptLen = 64 ∧
      (run (efpgTurn (fun _ => 0) .two)
          (Session.start (zeroedEfpg []) blankDevice)
          bootReadTurns).efpg.recvBuf = .extCmdFrame ∧
      ¬ Always (efpgTurn (fun _ => 0) .two) BuffersFit
        (Session.start (zeroedEfpg []) blankDevice) bootReadTurns := by
  have running : (run (efpgTurn (fun _ => 0) .two)
      (Session.start (zeroedEfpg []) blankDevice)
      bootReadTurns).phase = .running := by decide +kernel
  have len : (run (efpgTurn (fun _ => 0) .two)
      (Session.start (zeroedEfpg []) blankDevice)
      bootReadTurns).efpg.exptLen = 64 := by decide +kernel
  have buf : (run (efpgTurn (fun _ => 0) .two)
      (Session.start (zeroedEfpg []) blankDevice)
      bootReadTurns).efpg.recvBuf = .extCmdFrame := by decide +kernel
  refine ⟨len, buf, ?_⟩
  intro always
  have fits := (always bootReadTurns List.prefix_rfl).request running
  rw [len, buf] at fits
  exact absurd fits (by decide)

end XR872.Efpg
