/-
The order of frames in a fuse programming session.

A write belongs to the command exchange before it, and for the user area to the
two before it. The task itself remembers less: an extended frame is taken for
what it says, whatever command opened it, and an exit received in its place is
acknowledged like any other extended frame.
-/

import XR872.Efpg.TaskSpec

namespace XR872.Efpg

open BitView
open Buffers
open Chip.Efuse
open Runs

/-! ### The property -/

/-- A whole command frame with a valid checksum arrived in `buf`. -/
structure Command (exchange : Exchange) (buf : RecvBuf)
    (op : EfpgOp) : Prop where
  recvBuf : exchange.recvBuf = buf
  asked : exchange.exptLen = buf.size
  whole : exchange.received.length = buf.size
  intact : efpgChecksum8 exchange.received = 0xFF
  code : opOfCode (u16At exchange.received 0) = some op

structure Taken (exchange : Exchange) (buf : RecvBuf) (op : EfpgOp) : Prop
    extends Command exchange buf op where
  acknowledged : .sendAck .ok ∈ exchange.calls
  sent : exchange.ackSent = true
  goesOn : exchange.state = .cont

/-- The exchange announced this write of `payload` bytes. -/
inductive Announced (exchange : Exchange) (earlier : List Exchange)
    (write : FieldWrite) (payload : Nat) : Prop where
  | fixed (taken : Taken exchange .cmdFrame .write)
      (type : fixedType (u16At exchange.received 2) =
        some (write.field, payload + efpgMsgDgstLen))
      (start : write.startBitAddr = 0) (bits : write.bitLength = 0)
  | userArea (taken : Taken exchange .extCmdFrame .write)
      (type : u16At exchange.received 2 = efpgTypeUserArea)
      (field : write.field = .ua)
      (start : write.startBitAddr = u16At exchange.received 8)
      (bits : write.bitLength = u16At exchange.received 10)
      (len : payload = (u16At exchange.received 10 + 7) / 8)
      (command : Exchange) (before : List Exchange)
      (follows : earlier = command :: before)
      (opened : Taken command .cmdFrame .write)
      (asks : u16At command.received 2 = efpgTypeUserArea)

def WriteInOrder (exchange : Exchange) (earlier : List Exchange)
    (write : FieldWrite) : Prop :=
  ∃ command before payload,
    earlier = command :: before ∧ Announced command before write payload ∧
      exchange.recvBuf = .dataFrame ∧
        exchange.received.length = payload + efpgMsgDgstLen ∧
          write.data.take payload = exchange.received.take payload

structure InOrder (exchange : Exchange) (earlier : List Exchange) : Prop where
  writes : ∀ write, .writeField write ∈ exchange.calls →
    WriteInOrder exchange earlier write
  exits : ∀ buf, buf ≠ .dataFrame → Command exchange buf .exit →
    .stopProcess ∈ exchange.calls

/-- Every exchange is in order after the ones before it; the latest comes
first. -/
def Ordered : List Exchange → Prop
  | [] => True
  | exchange :: earlier => InOrder exchange earlier ∧ Ordered earlier

/-- The two ways to leave the order: an exit in an extended frame, and an
accepted data frame for a user area access that was opened for reading. -/
inductive OutOfOrder (sha256 : Sha256) (session : Session)
    (turn : Turn) : Prop where
  | exit (running : session.phase = .running)
      (position : session.efpg.recvBuf = .extCmdFrame)
      (len : session.efpg.exptLen = efpgUserAreaExtLen) (frame : List Byte)
      (arrives : turn.bytes session.efpg.exptLen = some frame)
      (whole : frame.length = session.efpg.exptLen)
      (intact : efpgChecksum8 frame = 0xFF)
      (code : opOfCode (u16At frame 0) = some .exit)
  | read (running : session.phase = .running)
      (position : session.efpg.isCmd = false)
      (field : session.efpg.field = .ua)
      (opened : opOfCode (u16At session.efpg.cmdFrame.cells 0) = some .read)
      (frame : List Byte)
      (arrives : turn.bytes session.efpg.exptLen = some frame)
      (whole : frame.length = session.efpg.exptLen)
      (fits : frame.length ≤ efpgDataFrameLenMax)
      (hashed : turn.hashed = true)
      (digest : DigestMatches sha256 session.efpg.key
        session.efpg.cmdFrame.cells frame)

/-! ### What the state remembers of the exchanges -/

/-- The exchange opened the user area access that `cmd_frame` still holds. -/
structure OpenedUserArea (command : Exchange) (efpg : EfpgPriv) : Prop where
  taken : ∃ op, (op = .read ∨ op = .write) ∧ Taken command .cmdFrame op
  type : u16At command.received 2 = efpgTypeUserArea
  kept : efpg.cmdFrame.cells = command.received

inductive OpenedWrite (exchange : Exchange) (earlier : List Exchange)
    (efpg : EfpgPriv) : Prop where
  | fixed (taken : Taken exchange .cmdFrame .write)
      (type : fixedType (u16At exchange.received 2) =
        some (efpg.field, efpg.exptLen))
      (start : efpg.startBitAddr = 0) (bits : efpg.bitLength = 0)
  | userArea (taken : Taken exchange .extCmdFrame .write)
      (type : u16At exchange.received 2 = efpgTypeUserArea)
      (field : efpg.field = .ua)
      (start : efpg.startBitAddr = u16At exchange.received 8)
      (bits : efpg.bitLength = u16At exchange.received 10)
      (len : efpg.exptLen = userAreaFrameLen efpg.bitLength)
      (command : Exchange) (before : List Exchange)
      (follows : earlier = command :: before)
      (opened : OpenedUserArea command efpg)

structure Linked (session : Session) : Prop where
  waiting : WellFormed session
  data : session.phase = .running → session.efpg.isCmd = false →
    ∃ exchange earlier, session.trace = exchange :: earlier ∧
      OpenedWrite exchange earlier session.efpg
  extended : session.phase = .running →
    session.efpg.recvBuf = .extCmdFrame →
      session.efpg.exptLen = efpgUserAreaExtLen →
        ∃ command before, session.trace = command :: before ∧
          OpenedUserArea command session.efpg

/-! ### Command exchanges -/

theorem parsed_exit {efpg after : EfpgPriv} (parsed : Parsed efpg after)
    (code : opOfCode (u16At efpg.frame 0) = some .exit) :
    after = { efpg with op := .exit } := by
  have accepted := efpgParseCmd_of_parsed parsed
  rw [efpgParseCmd_of_parsed (Parsed.exit code)] at accepted
  exact (congrArg Prod.snd accepted).symm

section Answers

variable {sha256 : Sha256} {arch : ChipArchVer} {turn : Turn} {efpg : EfpgPriv}
  {dev : Device} {p : Processed}

theorem answered_exit_normal (normal : efpg.extCmd = .normal)
    (intact : efpgChecksum8 (efpg.frame.take efpg.recvLen) = 0xFF)
    (code : opOfCode (u16At efpg.frame 0) = some .exit)
    (answered : Answered sha256 arch turn efpg dev p) :
    .stopProcess ∈ p.calls := by
  cases answered with
  | badChecksum wrong => exact absurd intact wrong
  | badCommand _ unknown after => exact absurd (Parsed.exit code) (unknown _)
  | extended _ after parsed ext =>
      rw [parsed_exit parsed code] at ext
      exact absurd (normal.symm.trans ext) (by simp)
  | read _ after parsed _ op =>
      rw [parsed_exit parsed code] at op
      cases op
  | write _ after parsed _ op =>
      rw [parsed_exit parsed code] at op
      cases op
  | exit _ after parsed _ op => exact List.mem_cons_self ..

theorem answered_exit_extended (ext : efpg.extCmd = .ext)
    (code : opOfCode (u16At efpg.frame 0) = some .exit)
    (answered : Answered sha256 arch turn efpg dev p) :
    .stopProcess ∉ p.calls := by
  cases answered with
  | badChecksum wrong => simp
  | badCommand _ unknown after => simp
  | extended _ after parsed _ => simp [efpgExtCmdProcess]
  | read _ after parsed _ op =>
      rw [parsed_exit parsed code] at op
      cases op
  | write _ after parsed _ op => simp [efpgWriteProcess]
  | exit _ after parsed normal _ =>
      rw [parsed_exit parsed code] at normal
      exact absurd (ext.symm.trans normal) (by simp)

end Answers

/-! ### Complete frames -/

/-- The exchange of a turn whose handler answered `p`. -/
def processedExchange (session : Session) (after : EfpgPriv) (turn : Turn)
    (bytes : List Byte) (p : Processed) : Exchange :=
  { exchangeOf session.efpg after turn bytes with
    calls := p.calls
    state := p.state }

section CompleteFrames

variable {sha256 : Sha256} {arch : ChipArchVer} {session : Session}
  {turn : Turn} {bytes : List Byte} {after : EfpgPriv} {p : Processed}

theorem taken_of_complete (linked : Linked session)
    (complete : Complete session turn bytes after)
    (isCmd : session.efpg.isCmd = true) {op : EfpgOp}
    (intact : efpgChecksum8 bytes = 0xFF)
    (code : opOfCode (u16At bytes 0) = some op) (ack : .sendAck .ok ∈ p.calls)
    (sent : turn.ackSent = true) (goesOn : p.state = .cont) :
    Taken (processedExchange session after turn bytes p) session.efpg.recvBuf
      op := by
  have waiting := linked.waiting complete.running
  have whole := whole_of_complete waiting isCmd complete.arrived complete.all
  exact
    { recvBuf := rfl
      asked := complete.all.symm.trans whole
      whole := whole
      intact := intact
      code := code
      acknowledged := ack
      sent := sent
      goesOn := goesOn }

theorem taken_frame (linked : Linked session)
    (complete : Complete session turn bytes after)
    (isCmd : session.efpg.isCmd = true) :
    ({ after with recvLen := bytes.length } : EfpgPriv).frame = bytes :=
  complete.arrived.frame isCmd
    (whole_of_complete (linked.waiting complete.running) isCmd
      complete.arrived complete.all)

/-- When the task goes on to wait for data, its state agrees with the exchange
that opened the write. -/
theorem openedWrite_of_complete (linked : Linked session)
    (complete : Complete session turn bytes after)
    (isCmd : session.efpg.isCmd = true)
    (answered : Answered sha256 arch turn
      { after with recvLen := bytes.length } session.dev p)
    (awaits : p.goto.2.isCmd = false) :
    OpenedWrite (processedExchange session after turn bytes p) session.trace
      p.goto.2 := by
  have control := complete.arrived.control bytes.length
  have frame := taken_frame linked complete isCmd
  obtain ⟨parsedTo, parsed, normal, op, intact, sent, rfl⟩ :=
    answered_data answered (control.isCmd.trans isCmd) awaits
  have goesOn : (efpgWriteProcess turn parsedTo session.dev).state = .cont :=
    acknowledged_sent sent
  have ack : Call.sendAck .ok ∈
      (efpgWriteProcess turn parsedTo session.dev).calls :=
    List.mem_singleton_self _
  have whole : ({ after with recvLen := bytes.length } : EfpgPriv).frame.take
      bytes.length = bytes := by
    rw [frame, List.take_length]
  change efpgChecksum8 (({ after with recvLen := bytes.length } :
    EfpgPriv).frame.take bytes.length) = _ at intact
  rw [whole] at intact
  rw [goto_of_cont goesOn]
  cases parsed with
  | exit code => cases op
  | fixed operation code works field type =>
      rw [frame] at code type
      obtain rfl : operation = .write := op
      have kind := control.extCmd.symm.trans normal
      have position := recvBuf_command isCmd kind
      have taken := taken_of_complete linked complete isCmd intact code ack sent
        goesOn
      rw [position] at taken
      have waiting := linked.waiting complete.running
      cases waiting with
      | command _ _ _ start bits =>
          refine OpenedWrite.fixed taken ?_ (control.startBitAddr.trans start)
            (control.bitLength.trans bits)
          change fixedType (u16At bytes 2) = some (field, u16At _ 4)
          rw [frame]
          exact type
      | extended _ ext _ => exact absurd (kind.symm.trans ext) (by simp)
      | data isData _ _ => exact absurd (isCmd.symm.trans isData) (by simp)
  | announce => cases normal
  | extended operation code works type ext =>
      rw [frame] at code type
      obtain rfl : operation = .write := op
      have kind := control.extCmd.symm.trans ext
      have position := recvBuf_extended isCmd kind
      have taken := taken_of_complete linked complete isCmd intact code ack sent
        goesOn
      rw [position] at taken
      have len := taken.asked
      obtain ⟨command, before, follows, opened⟩ :=
        linked.extended complete.running position len
      have kept := complete.arrived.cmdKept (by rw [position]; simp)
      have start : u16At ({ after with recvLen := bytes.length } :
          EfpgPriv).frame 8 = u16At bytes 8 := by rw [frame]
      have bits : u16At ({ after with recvLen := bytes.length } :
          EfpgPriv).frame 10 = u16At bytes 10 := by rw [frame]
      refine OpenedWrite.userArea taken type rfl start bits rfl command before
        follows ?_
      exact
        { taken := opened.taken
          type := opened.type
          kept := (congrArg Buffer.cells kept).trans opened.kept }

/-- When the task goes on to wait for an extended frame of the announced length
and no exit was taken, the exchange opened a user area access. -/
theorem openedUserArea_of_complete (linked : Linked session)
    (complete : Complete session turn bytes after)
    (isCmd : session.efpg.isCmd = true)
    (stays : ¬ OutOfOrder sha256 session turn)
    (answered : Answered sha256 arch turn
      { after with recvLen := bytes.length } session.dev p)
    (running : p.goto.1 = .running) (awaits : p.goto.2.recvBuf = .extCmdFrame)
    (len : p.goto.2.exptLen = efpgUserAreaExtLen) :
    OpenedUserArea (processedExchange session after turn bytes p) p.goto.2 := by
  have control := complete.arrived.control bytes.length
  have frame := taken_frame linked complete isCmd
  obtain ⟨parsedTo, parsed, ext, intact, sent, rfl⟩ :=
    answered_awaitsExtended answered running awaits
  have goesOn : (efpgExtCmdProcess turn parsedTo session.dev).state = .cont :=
    acknowledged_sent sent
  have ack : Call.sendAck .ok ∈
      (efpgExtCmdProcess turn parsedTo session.dev).calls :=
    List.mem_singleton_self _
  have whole : ({ after with recvLen := bytes.length } : EfpgPriv).frame.take
      bytes.length = bytes := by
    rw [frame, List.take_length]
  change efpgChecksum8 (({ after with recvLen := bytes.length } :
    EfpgPriv).frame.take bytes.length) = _ at intact
  rw [whole] at intact
  rw [goto_of_cont goesOn] at len ⊢
  cases parsed with
  | exit code =>
      rw [frame] at code
      have kind := control.extCmd.symm.trans ext
      have position := recvBuf_extended isCmd kind
      refine absurd (OutOfOrder.exit complete.running position ?_ bytes
        complete.arrives complete.all intact code) stays
      exact control.exptLen.symm.trans len
  | fixed operation code works field type =>
      have long := (fixedType_len type 0).2.1
      change u16At _ 4 = efpgUserAreaExtLen at len
      rw [len] at long
      exact absurd long (by decide)
  | announce operation code works type _ normal _ =>
      rw [frame] at code type
      have kind := control.extCmd.symm.trans normal
      have position := recvBuf_command isCmd kind
      have taken := taken_of_complete linked complete isCmd intact code ack sent
        goesOn
      rw [position] at taken
      have kept := complete.arrived.command position taken.whole
      exact
        { taken := ⟨operation, works, taken⟩
          type := type
          kept := kept }
  | extended => cases ext

/-- A command exchange is in order exactly if it is no exit in an extended
frame. -/
theorem inOrder_command (linked : Linked session)
    (complete : Complete session turn bytes after)
    (isCmd : session.efpg.isCmd = true)
    (answered : Answered sha256 arch turn
      { after with recvLen := bytes.length } session.dev p) :
    InOrder (processedExchange session after turn bytes p) session.trace ↔
      ¬ OutOfOrder sha256 session turn := by
  have control := complete.arrived.control bytes.length
  have frame := taken_frame linked complete isCmd
  have taken : ({ after with recvLen := bytes.length } : EfpgPriv).frame.take
      bytes.length = bytes := by
    rw [frame, List.take_length]
  have noWrites : ∀ write, .writeField write ∈ p.calls →
      WriteInOrder (processedExchange session after turn bytes p)
        session.trace write := fun write member =>
    absurd member (answered_calls answered write)
  have exitOnly : OutOfOrder sha256 session turn →
      session.efpg.extCmd = .ext ∧ efpgChecksum8 bytes = 0xFF ∧
        session.efpg.exptLen = efpgUserAreaExtLen ∧
          opOfCode (u16At bytes 0) = some .exit := by
    intro wrong
    cases wrong with
    | exit _ position len received arrives _ intact code =>
        rw [complete.arrives] at arrives
        obtain rfl := Option.some.inj arrives
        refine ⟨?_, intact, len, code⟩
        cases kind : session.efpg.extCmd with
        | ext => rfl
        | normal =>
            rw [recvBuf_command isCmd kind] at position
            cases position
    | read _ isData =>
        rw [isCmd] at isData
        cases isData
  constructor
  · intro inOrder wrong
    obtain ⟨ext, intact, len, code⟩ := exitOnly wrong
    have position := recvBuf_extended isCmd ext
    have command : Command (processedExchange session after turn bytes p)
        .extCmdFrame .exit :=
      { recvBuf := position
        asked := len
        whole := complete.all.trans len
        intact := intact
        code := code }
    have stopped := inOrder.exits _ (by simp) command
    rw [← frame] at code
    exact answered_exit_extended (control.extCmd.trans ext) code answered stopped
  · intro stays
    refine { writes := noWrites, exits := ?_ }
    intro buf _ command
    have code := command.code
    have intact := command.intact
    change opOfCode (u16At bytes 0) = _ at code
    change efpgChecksum8 bytes = _ at intact
    cases kind : session.efpg.extCmd with
    | normal =>
        refine answered_exit_normal (control.extCmd.trans kind) ?_ ?_ answered
        · rw [taken]
          exact intact
        · rw [frame]
          exact code
    | ext =>
        have position := recvBuf_extended isCmd kind
        have len := command.asked
        rw [← command.recvBuf] at len
        change session.efpg.exptLen = session.efpg.recvBuf.size at len
        rw [position] at len
        exact absurd (OutOfOrder.exit complete.running position len bytes
          complete.arrives complete.all intact code) stays

theorem writeInOrder_of_opened {exchange command : Exchange}
    {before : List Exchange} {efpg : EfpgPriv} {data : List Byte}
    (opened : OpenedWrite command before efpg) (waiting : Waiting efpg)
    (isData : efpg.isCmd = false) (buf : exchange.recvBuf = .dataFrame)
    (all : exchange.received.length = efpg.exptLen)
    (stored : data.take exchange.received.length = exchange.received)
    (writes : efpg.field = .ua →
      opOfCode (u16At efpg.cmdFrame.cells 0) = some .write) :
    WriteInOrder exchange (command :: before)
      { field := efpg.field
        data := data
        startBitAddr := efpg.startBitAddr
        bitLength := efpg.bitLength } := by
  have payload (count : Nat) (within : count ≤ exchange.received.length) :
      data.take count = exchange.received.take count := by
    rw [← stored, List.take_take, Nat.min_eq_left within]
  have len : efpg.exptLen =
      fieldBytes efpg.field efpg.bitLength + efpgMsgDgstLen := by
    cases waiting with
    | command isCmd => exact absurd (isCmd.symm.trans isData) (by simp)
    | extended isCmd => exact absurd (isCmd.symm.trans isData) (by simp)
    | data _ _ len => exact len
  rw [len] at all
  refine ⟨command, before, fieldBytes efpg.field efpg.bitLength, rfl, ?_, buf,
    all, payload _ (by omega)⟩
  cases opened with
  | fixed taken type start bits =>
      rw [len] at type
      exact Announced.fixed taken type start bits
  | userArea taken type field start bits _ opening earlier follows opened =>
      obtain ⟨op, _, command⟩ := opened.taken
      have code := command.code
      rw [← opened.kept, writes field] at code
      obtain rfl := Option.some.inj code
      refine Announced.userArea taken type field start bits ?_ opening earlier
        follows command opened.type
      rw [field, ← bits]
      rfl

/-- A data exchange is in order exactly if it is no accepted write to a user area
that was opened for reading. -/
theorem inOrder_data (linked : Linked session)
    (complete : Complete session turn bytes after)
    (isData : session.efpg.isCmd = false)
    (process : p = efpgDataFrameProcess sha256 arch turn
      { after with recvLen := bytes.length } session.dev) :
    InOrder (processedExchange session after turn bytes p) session.trace ↔
      ¬ OutOfOrder sha256 session turn := by
  subst process
  have buf := recvBuf_data isData
  have control := complete.arrived.control bytes.length
  have digest : efpgCheckMsgDgst sha256 turn
        { after with recvLen := bytes.length } = true ↔ _ :=
    efpgCheckMsgDgst_iff isData complete.arrived
  have fits := complete.arrived.fits
  rw [buf] at fits
  change bytes.length ≤ efpgDataFrameLenMax at fits
  have stored := complete.arrived.data buf
  obtain ⟨command, before, trace, opened⟩ :=
    linked.data complete.running isData
  have waiting := linked.waiting complete.running
  have noExits : ∀ other, other ≠ .dataFrame →
      Command (processedExchange session after turn bytes
        (efpgDataFrameProcess sha256 arch turn
          { after with recvLen := bytes.length } session.dev)) other .exit →
        .stopProcess ∈ (efpgDataFrameProcess sha256 arch turn
          { after with recvLen := bytes.length } session.dev).calls :=
    fun other notData command =>
      absurd (command.recvBuf.symm.trans buf) notData
  constructor
  · intro inOrder wrong
    cases wrong with
    | exit _ position =>
        rw [buf] at position
        cases position
    | read _ _ field opening frame arrives whole _ hashed matched =>
        rw [complete.arrives] at arrives
        obtain rfl := Option.some.inj arrives
        have written := (efpgDataFrameProcess_calls sha256 arch turn
          { after with recvLen := bytes.length } session.dev _).mpr
          ⟨digest.mpr ⟨hashed, matched⟩, rfl⟩
        obtain ⟨last, earlier, payload, sameTrace, announced, -⟩ :=
          inOrder.writes _ written
        rw [trace] at sameTrace
        obtain ⟨rfl, rfl⟩ := List.cons.inj sameTrace
        cases opened with
        | fixed taken type =>
            rw [field] at type
            exact absurd rfl (fixedType_len type 0).2.2.2
        | userArea taken _ _ _ _ _ first rest follows opened =>
            cases announced with
            | fixed again =>
                exact absurd (taken.recvBuf.symm.trans again.recvBuf) (by simp)
            | userArea _ _ _ _ _ _ other others same openedWrite _ =>
                rw [follows] at same
                obtain ⟨rfl, rfl⟩ := List.cons.inj same
                have code := openedWrite.code
                rw [← opened.kept, opening] at code
                cases code
  · intro stays
    refine { writes := fun write member => ?_, exits := noExits }
    obtain ⟨accepted, rfl⟩ := (efpgDataFrameProcess_calls sha256 arch turn
      { after with recvLen := bytes.length } session.dev write).mp member
    obtain ⟨hashed, matched⟩ := digest.mp accepted
    have opens : session.efpg.field = .ua →
        opOfCode (u16At session.efpg.cmdFrame.cells 0) = some .write := by
      intro field
      cases opened with
      | fixed taken type =>
          rw [field] at type
          exact absurd rfl (fixedType_len type 0).2.2.2
      | userArea _ _ _ _ _ _ first rest follows opened =>
          obtain ⟨op, works, taken⟩ := opened.taken
          have code := taken.code
          rw [← opened.kept] at code
          rcases works with rfl | rfl
          · exact absurd (OutOfOrder.read complete.running isData field code
              bytes complete.arrives complete.all fits hashed matched) stays
          · exact code
    have inOrder : WriteInOrder
        (processedExchange session after turn bytes
          (efpgDataFrameProcess sha256 arch turn
            { after with recvLen := bytes.length } session.dev)) _ _ :=
      writeInOrder_of_opened opened waiting isData buf complete.all stored opens
    rw [← trace, ← control.field, ← control.startBitAddr, ← control.bitLength]
      at inOrder
    exact inOrder

end CompleteFrames

/-! ### Turns and runs -/

/-- A turn whose frame ran no handler is in order and ends no session. -/
theorem inOrder_unprocessed {session : Session} {after : EfpgPriv} {turn : Turn}
    {bytes : List Byte} (earlier : List Exchange)
    (notWhole : ∀ buf, bytes.length = buf.size → session.efpg.recvBuf = buf →
      session.efpg.exptLen ≠ buf.size) :
    InOrder (exchangeOf session.efpg after turn bytes) earlier :=
  { writes := fun _ member => nomatch member
    exits := fun buf _ command =>
      absurd command.asked (notWhole buf command.whole command.recvBuf) }

theorem linked_of_command {session : Session} (waiting : WellFormed session)
    (command : session.phase = .running →
      session.efpg.recvBuf = .cmdFrame) : Linked session := by
  refine { waiting := waiting, data := ?_, extended := ?_ }
  · intro running isData
    have buf := command running
    rw [recvBuf_data isData] at buf
    cases buf
  · intro running position
    have buf := command running
    rw [position] at buf
    cases buf

/-- A turn keeps the order exactly if it is not one of the two that leave it; then
the state still agrees with the exchanges. -/
theorem ordered_turn (sha256 : Sha256) (arch : ChipArchVer) (session : Session)
    (turn : Turn) (linked : Linked session) (ordered : Ordered session.trace) :
    (Ordered (efpgTurn sha256 arch session turn).trace ↔
        ¬ OutOfOrder sha256 session turn) ∧
      (¬ OutOfOrder sha256 session turn →
        Linked (efpgTurn sha256 arch session turn)) := by
  have wellFormed := wellFormed_turn sha256 arch session turn linked.waiting
  have turned := efpgTurn_turned sha256 arch session turn
  generalize efpgTurn sha256 arch session turn = next at turned wellFormed ⊢
  cases turned with
  | idle nothing =>
      refine ⟨iff_of_true ordered ?_, fun _ => linked⟩
      rintro (⟨running, _, len, frame, arrives, whole⟩ |
        ⟨running, isData, _, _, frame, arrives, whole⟩)
      · rw [nothing running] at arrives
        obtain rfl := Option.some.inj arrives
        rw [len] at whole
        cases whole
      · rw [nothing running] at arrives
        obtain rfl := Option.some.inj arrives
        cases linked.waiting running with
        | command isCmd => exact absurd (isCmd.symm.trans isData) (by simp)
        | extended isCmd => exact absurd (isCmd.symm.trans isData) (by simp)
        | data _ _ len =>
            rw [len] at whole
            exact absurd whole.symm (Nat.succ_ne_zero _)
  | failed running broken =>
      have none := Turn.bytes_none broken
      refine ⟨iff_of_true ordered ?_,
        fun _ => linked_of_command wellFormed fun stopped => nomatch stopped⟩
      rintro (⟨_, _, _, frame, arrives⟩ | ⟨_, _, _, _, frame, arrives⟩)
      · rw [none] at arrives
        cases arrives
      · rw [none] at arrives
        cases arrives
  | overrun running bytes arrives past =>
      have inOrder : InOrder
          (exchangeOf session.efpg session.efpg turn bytes) session.trace :=
        inOrder_unprocessed _ fun buf whole same => by
          rw [same, whole] at past
          exact absurd past (Nat.lt_irrefl _)
      refine ⟨iff_of_true ⟨inOrder, ordered⟩ ?_,
        fun _ => linked_of_command wellFormed fun ended => nomatch ended⟩
      rintro (⟨_, position, len, frame, received, whole⟩ |
        ⟨_, isData, _, _, frame, received, _, fits⟩)
      · rw [arrives] at received
        obtain rfl := Option.some.inj received
        rw [position, whole, len] at past
        exact absurd past (Nat.lt_irrefl _)
      · rw [arrives] at received
        obtain rfl := Option.some.inj received
        rw [recvBuf_data isData] at past
        exact absurd (Nat.lt_of_lt_of_le past fits) (Nat.lt_irrefl _)
  | short running bytes arrives after arrived partly =>
      have inOrder : InOrder (exchangeOf session.efpg after turn bytes)
          session.trace :=
        inOrder_unprocessed _ fun buf whole same asked =>
          partly (whole.trans asked.symm)
      refine ⟨iff_of_true ⟨inOrder, ordered⟩ ?_,
        fun _ => linked_of_command wellFormed fun _ => rfl⟩
      rintro (⟨_, _, _, frame, received, whole⟩ |
        ⟨_, _, _, _, frame, received, whole⟩)
      · rw [arrives] at received
        obtain rfl := Option.some.inj received
        exact partly whole
      · rw [arrives] at received
        obtain rfl := Option.some.inj received
        exact partly whole
  | complete running bytes arrives after arrived all =>
      have complete : Complete session turn bytes after :=
        { running := running
          arrives := arrives
          arrived := arrived
          all := all }
      let p := efpgProcess sha256 arch turn
        { after with recvLen := bytes.length } session.dev
      have whole : Ordered (processedSession session after turn bytes p).trace ↔
          InOrder (processedExchange session after turn bytes p)
            session.trace := and_iff_left ordered
      cases isCmd : session.efpg.isCmd with
      | false =>
          have process : p = efpgDataFrameProcess sha256 arch turn
              { after with recvLen := bytes.length } session.dev :=
            arrived.process_data sha256 arch turn _ _ isCmd
          have reset : p.state = .reset :=
            arrived.reset_data sha256 arch turn _ _ isCmd
          refine ⟨whole.trans (inOrder_data linked complete isCmd process),
            fun _ => linked_of_command wellFormed fun _ => ?_⟩
          exact recvBuf_of_reset reset
      | true =>
          have answered : Answered sha256 arch turn
              { after with recvLen := bytes.length } session.dev p :=
            arrived.answered_command sha256 arch turn _ _ isCmd
          refine ⟨whole.trans (inOrder_command linked complete isCmd answered),
            fun stays => { waiting := wellFormed, data := ?_, extended := ?_ }⟩
          · intro _ awaits
            exact ⟨_, _, rfl,
              openedWrite_of_complete linked complete isCmd answered awaits⟩
          · intro goesOn position len
            exact ⟨_, _, rfl,
              openedUserArea_of_complete linked complete isCmd stays answered
                goesOn position len⟩

/-- For every memory the session starts from and every list of turns, all
exchanges are in order exactly if no exit arrives in an extended frame and no
data frame is accepted for a user area access that was opened for reading. -/
theorem ordered_iff (sha256 : Sha256) (arch : ChipArchVer) (efpg : EfpgPriv)
    (dev : Device) (turns : List Turn) :
    Always (efpgTurn sha256 arch) (fun session => Ordered session.trace)
        (Session.start efpg dev) turns ↔
      Along (efpgTurn sha256 arch)
        (fun session turn => ¬ OutOfOrder sha256 session turn)
        (Session.start efpg dev) turns := by
  apply always_iff_along (fun session => Ordered session.trace) _ Linked
  · intro session turn linked ordered stays
    exact (ordered_turn sha256 arch session turn linked ordered).2 stays
  · intro session turn linked ordered
    exact (ordered_turn sha256 arch session turn linked ordered).1
  · exact linked_of_command (wellFormed_start efpg dev) fun _ => rfl
  · exact trivial

/-- An exit in the place of an extended frame. -/
def extendedExitTurns : List Turn :=
  [Turn.receive (userAreaCommand 0xF00F),
    Turn.receive (extendedFrame 0xFFFF efpgTypeUserArea 0 0 0)]

/-- The exit is acknowledged, and the session waits for another extended
frame. -/
theorem extendedExit_goesOn :
    (run (efpgTurn (fun _ => 0) .two)
          (Session.start (zeroedEfpg []) blankDevice)
          extendedExitTurns).phase = .running ∧
      (run (efpgTurn (fun _ => 0) .two)
          (Session.start (zeroedEfpg []) blankDevice)
          extendedExitTurns).efpg.recvBuf = .extCmdFrame ∧
      ¬ Always (efpgTurn (fun _ => 0) .two)
        (fun session => Ordered session.trace)
        (Session.start (zeroedEfpg []) blankDevice) extendedExitTurns := by
  let last := run (efpgTurn (fun _ => 0) .two)
    (Session.start (zeroedEfpg []) blankDevice) extendedExitTurns
  have running : last.phase = .running := by decide +kernel
  have waits : last.efpg.recvBuf = .extCmdFrame := by decide +kernel
  refine ⟨running, waits, ?_⟩
  intro always
  have ordered : Ordered last.trace := always extendedExitTurns List.prefix_rfl
  have trace : ∃ exchange earlier, last.trace = exchange :: earlier ∧
      exchange.recvBuf = .extCmdFrame ∧ exchange.exptLen = 13 ∧
      exchange.received =
        extendedFrame 0xFFFF efpgTypeUserArea 0 0 0 ∧
      .stopProcess ∉ exchange.calls := by
    refine ⟨_, _, rfl, ?_⟩
    decide +kernel
  obtain ⟨exchange, earlier, shape, buf, asked, received, noStop⟩ := trace
  rw [shape] at ordered
  apply noStop
  refine ordered.1.exits .extCmdFrame (by simp) ?_
  exact
    { recvBuf := buf
      asked := asked
      whole := by rw [received]; decide +kernel
      intact := by rw [received]; decide +kernel
      code := by rw [received]; decide +kernel }

end XR872.Efpg
