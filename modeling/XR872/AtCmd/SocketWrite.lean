/-
The payload of AT+S.SOCKW.

`at_sockw` takes its bytes from the queue that the command line came from. It
starts behind the first character of the line end, since `at_parse` only looks
at the LF of a CRLF, and it returns at the first piece that the handler does
not answer with `AEC_OK`, whatever is left of the payload.
-/

import XR872.AtCmd.DataMode
import XR872.AtCmd.Parse

namespace XR872.AtCmd

open BitView
open Buffers
open Rings

variable {n : Nat}

/-! ### The command -/

def isSpace (ch : Byte) : Bool :=
  ch = 0x20#8 || (0x09#8 ≤ ch && ch ≤ 0x0d#8)

def decDigits (str : List Byte) : Nat :=
  (str.takeWhile isDec).foldl (fun num ch => 10 * num + (ch.toNat - 0x30)) 0

/-- `strtol` with base 10, cut off at a `long`. -/
def strtol (str : List Byte) : Int :=
  match str.dropWhile isSpace with
  | [] => 0
  | ch :: rest =>
      if ch = 0x2d#8 then max (-(decDigits rest : Int)) (-2 ^ 31)
      else if ch = 0x2b#8 then min (decDigits rest : Int) (2 ^ 31 - 1)
      else min (decDigits (ch :: rest) : Int) (2 ^ 31 - 1)

def sockwParaList : List AtParaDescriptor :=
  [ { pt := .text, option := AET_PARA ||| SIZE_LIMIT AT_PARA_MAX_SIZE },
    { pt := .di, option := AET_LINE ||| SIZE_LIMIT 4 } ]

/-- What `sockw_handler` calls `at_sockw` with, if it does. -/
def sockwHandler (ptr : List Byte) : Option (List Byte × BitVec 32) :=
  match ptr with
  | [] => none
  | char :: rest =>
      if char = AT_EQU then
        match atGetParameters sockwParaList rest with
        | (.ok, [.text id, .di len], _) => some (id, len)
        | _ => none
      else none

/-- The same for a line that is handed to `at_parse_cmd`. -/
def sockwCommand (cmdline : List Byte) : Option (List Byte × BitVec 32) :=
  match atParseCmd cmdline with
  | .handler idx ptr =>
      if atCommandTable[idx]? = some (charBytes "AT+S.SOCKW") then
        sockwHandler ptr
      else none
  | _ => none

/-! ### The loops -/

structure SockwCall where
  id : Int
  /-- As far as `len`. -/
  buf : List Byte
deriving DecidableEq, Repr

inductive SockwAnswer where
  | ok
  | sendFail
deriving DecidableEq, Repr

/-- `at_sockw` between two calls of `at_queue_get`. -/
structure Sockw (n : Nat) where
  queue : AtQueue n
  len : Int
  /-- `at_socket_buf` as far as `i`. -/
  buf : List Byte
  /-- The calls of the handler, oldest first. -/
  calls : List SockwCall
  answer : Option SockwAnswer
  /-- The queue left its ring. -/
  outside : Bool
deriving DecidableEq, Repr

def atSockwStart (queue : AtQueue n) (len : BitVec 32) : Sockw n :=
  { queue, len := len.toInt, buf := [], calls := [], answer := none,
    outside := false }

def Sockw.rlen (sockw : Sockw n) : Nat :=
  min sockw.len.toNat AT_SOCKET_BUFFER_SIZE

/-- A piece is complete: the handler, if there is one, answers its calls in
turn. -/
def atSockwPiece (handleCb : Option (Nat → AtErrorCode)) (id : Int)
    (sockw : Sockw n) : Sockw n :=
  match handleCb with
  | none => { sockw with buf := [], len := sockw.len - sockw.rlen }
  | some answers =>
      let called : Sockw n :=
        { sockw with
          buf := []
          calls := sockw.calls ++ [{ id, buf := sockw.buf }] }
      if answers sockw.calls.length = .ok then
        { called with len := sockw.len - sockw.rlen }
      else { called with answer := some .sendFail }

/-- One call of `at_queue_get`, which waits as long as the queue is empty, and
what follows up to the next one; or the end of the outer loop. -/
def atSockwTurn (handleCb : Option (Nat → AtErrorCode)) (id : Int)
    (sockw : Sockw n) : Sockw n :=
  if sockw.outside ∨ sockw.answer ≠ none then sockw
  else if sockw.len ≤ 0 then { sockw with answer := some .ok }
  else
    match atQueueGet sockw.queue with
    | none => { sockw with outside := true }
    | some (.empty, queue) => { sockw with queue }
    | some (.ok tmp, queue) =>
        let stored := { sockw with queue, buf := sockw.buf ++ [tmp] }
        if stored.buf.length < stored.rlen then stored
        else atSockwPiece handleCb id stored

/-- What the handler was given. -/
def Sockw.sent (sockw : Sockw n) : List Byte :=
  (sockw.calls.map SockwCall.buf).flatten

/-! ### What the command is for -/

def CrLf (stream : List Byte) : Prop :=
  stream.head? = some AT_CR ∧ stream.tail.head? = some AT_LF

instance (stream : List Byte) : Decidable (CrLf stream) :=
  inferInstanceAs (Decidable (_ ∧ _))

/-- What follows the line end. -/
def payloadOf (stream : List Byte) : List Byte :=
  if CrLf stream then stream.tail.tail else stream.tail

/-- The payload goes to the handler piece by piece with nothing before, between
or behind the pieces, and a command that is finished has taken `len` bytes of
it. -/
structure SockwPromise (len : Nat) (payload : List Byte) (sockw : Sockw n) :
    Prop where
  inside : sockw.outside = false
  pieces : ∀ call ∈ sockw.calls, call.buf.length ≤ AT_SOCKET_BUFFER_SIZE
  whole : sockw.calls ≠ [] →
    sockw.sent ++ (sockw.buf ++ sockw.queue.unread) = payload
  taken : sockw.answer ≠ none →
    payload.length - sockw.queue.unread.length = len

/-- With a CRLF the first piece does not come about; and the handler refuses no
piece but the last. -/
def SockwClean (len : Nat) (stream : List Byte) (answers : Nat → AtErrorCode) :
    Prop :=
  (CrLf stream → 0 < len →
    stream.tail.length < min len AT_SOCKET_BUFFER_SIZE) ∧
  ∀ index, AT_SOCKET_BUFFER_SIZE * (index + 1) < len →
    AT_SOCKET_BUFFER_SIZE * (index + 1) ≤ stream.tail.length →
      answers index = .ok

/-! ### Turns -/

/-- The command with `len` bytes in all, between two turns. -/
structure Writing (len : Nat) (rest : List Byte) (answers : Nat → AtErrorCode)
    (sockw : Sockw n) (reader : Reader) : Prop where
  inside : sockw.outside = false
  reads : Reads sockw.queue reader
  whole : sockw.sent ++ (sockw.buf ++ reader.unread) = rest
  pieces : ∀ call ∈ sockw.calls, call.buf.length ≤ AT_SOCKET_BUFFER_SIZE
  count : sockw.sent.length = min len (AT_SOCKET_BUFFER_SIZE * sockw.calls.length)
  called : sockw.calls ≠ [] → 0 < len
  running : sockw.answer = none →
    sockw.len = len - sockw.sent.length ∧
      sockw.buf.length < max 1 sockw.rlen ∧
      ∀ index < sockw.calls.length, answers index = .ok
  returned : sockw.answer = some .ok →
    sockw.buf = [] ∧ sockw.sent.length = len ∧
      ∀ index < sockw.calls.length, answers index = .ok
  failed : sockw.answer = some .sendFail →
    sockw.buf = [] ∧ ∃ index, sockw.calls.length = index + 1 ∧
      answers index ≠ .ok ∧ ∀ earlier < index, answers earlier = .ok

section Turns

variable (len : Nat) (rest : List Byte) (answers : Nat → AtErrorCode) (id : Int)

theorem writing_start (queue : AtQueue n) (reader : Reader)
    (reads : Reads queue reader) (given : BitVec 32)
    (positive : given.toInt = given.toNat) :
    Writing given.toNat reader.unread answers (atSockwStart queue given)
      reader := by
  exact {
    inside := rfl
    reads := reads
    whole := rfl
    pieces := by
      intro call member
      cases member
    count := (Nat.min_zero _).symm
    called := fun called => absurd rfl called
    running := by
      intro _
      refine ⟨?_, Nat.lt_of_lt_of_le Nat.zero_lt_one (Nat.le_max_left _ _), ?_⟩
      · change given.toInt = given.toNat - ((0 : Nat) : Int)
        omega
      · intro index below
        exact absurd below (Nat.not_lt_zero index)
    returned := by
      intro ended
      cases ended
    failed := by
      intro ended
      cases ended }

theorem writing_piece (sockw : Sockw n) (reader later : Reader) (tmp : Byte)
    (queue : AtQueue n) (writing : Writing len rest answers sockw reader)
    (going : sockw.answer = none) (more : ¬ sockw.len ≤ 0)
    (reads : Reads queue later) (next : reader.unread = tmp :: later.unread)
    (full : sockw.rlen ≤ sockw.buf.length + 1) :
    Writing len rest answers
      (atSockwPiece (some answers) id
        { sockw with queue, buf := sockw.buf ++ [tmp] }) later := by
  obtain ⟨left_, short, ok⟩ := writing.running going
  have count := writing.count
  have size : AT_SOCKET_BUFFER_SIZE = 1024 := rfl
  have rlen : sockw.rlen = min sockw.len.toNat 1024 := rfl
  have whole : sockw.sent ++ (sockw.buf ++ [tmp]) ++ later.unread = rest := by
    rw [← writing.whole, next, List.append_assoc, List.append_assoc,
      List.singleton_append]
  have longer : (sockw.buf ++ [tmp]).length = sockw.buf.length + 1 := by
    rw [List.length_append, List.length_singleton]
  have sent : ((sockw.calls ++ [SockwCall.mk id (sockw.buf ++ [tmp])]).map
      SockwCall.buf).flatten = sockw.sent ++ (sockw.buf ++ [tmp]) := by
    rw [List.map_append, List.flatten_append]
    exact congrArg (sockw.sent ++ ·) List.flatten_singleton
  have pieces : ∀ call : SockwCall,
      call ∈ sockw.calls ++ [{ id, buf := sockw.buf ++ [tmp] }] →
        call.buf.length ≤ AT_SOCKET_BUFFER_SIZE := by
    intro call member
    rcases List.mem_append.mp member with old | new
    · exact writing.pieces call old
    · rw [List.mem_singleton.mp new, longer]
      omega
  have total : (sockw.sent ++ (sockw.buf ++ [tmp])).length =
      min len (AT_SOCKET_BUFFER_SIZE * (sockw.calls.length + 1)) := by
    rw [List.length_append, longer]
    rw [size] at count ⊢
    omega
  have positive : 0 < len := by omega
  unfold atSockwPiece
  dsimp only
  by_cases accepted : answers sockw.calls.length = .ok
  · rw [if_pos accepted]
    exact {
      inside := writing.inside
      reads := reads
      whole := by
        unfold Sockw.sent
        rw [sent]
        exact whole
      pieces := pieces
      count := by
        unfold Sockw.sent
        rw [sent, total, List.length_append, List.length_singleton]
      called := fun _ => positive
      running := by
        intro _
        refine ⟨?_, Nat.lt_of_lt_of_le Nat.zero_lt_one (Nat.le_max_left _ _), ?_⟩
        · unfold Sockw.sent
          rw [sent, List.length_append, longer]
          change sockw.len - (sockw.rlen : Int) = _
          omega
        · intro index below
          rw [List.length_append, List.length_singleton] at below
          rcases Nat.lt_succ_iff_lt_or_eq.mp below with earlier | same
          · exact ok index earlier
          · rw [same]
            exact accepted
      returned := by
        intro ended
        rw [going] at ended
        cases ended
      failed := by
        intro ended
        rw [going] at ended
        cases ended }
  · rw [if_neg accepted]
    exact {
      inside := writing.inside
      reads := reads
      whole := by
        unfold Sockw.sent
        rw [sent]
        exact whole
      pieces := pieces
      count := by
        unfold Sockw.sent
        rw [sent, total, List.length_append, List.length_singleton]
      called := fun _ => positive
      running := by
        intro ended
        cases ended
      returned := by
        intro ended
        cases ended
      failed := by
        intro _
        refine ⟨rfl, sockw.calls.length, ?_, accepted, ok⟩
        rw [List.length_append, List.length_singleton] }

/-- A turn ends the command or gets on with the stream, until its end. -/
theorem writing_turn (sockw : Sockw n) (reader : Reader)
    (writing : Writing len rest answers sockw reader) :
    ∃ later, Writing len rest answers (atSockwTurn (some answers) id sockw)
        later ∧
      ((atSockwTurn (some answers) id sockw).answer ≠ none ∨
        0 < sockw.len ∧ later.work ≤ reader.work - 1) := by
  unfold atSockwTurn
  by_cases going : sockw.answer = none
  · rw [if_neg (by rw [writing.inside, going]; simp)]
    obtain ⟨left_, short, ok⟩ := writing.running going
    by_cases over_ : sockw.len ≤ 0
    · rw [if_pos over_]
      have count := writing.count
      have rlen : sockw.rlen = min sockw.len.toNat AT_SOCKET_BUFFER_SIZE := rfl
      refine ⟨reader, ?_, Or.inl (by simp)⟩
      exact {
        inside := writing.inside
        reads := writing.reads
        whole := writing.whole
        pieces := writing.pieces
        count := count
        called := writing.called
        running := by
          intro ended
          cases ended
        returned := by
          intro _
          refine ⟨List.eq_nil_of_length_eq_zero ?_, ?_, ok⟩
          · change sockw.buf.length = 0
            omega
          · change sockw.sent.length = len
            omega
        failed := by
          intro ended
          cases ended }
    · rw [if_neg over_]
      obtain ⟨queue, get, reads⟩ := atQueueGet_reads _ _ writing.reads
      rcases reader.get_cases with ⟨nothing, drained⟩ | ⟨tmp, bytes, found, taken⟩
      · rw [nothing] at get reads
        simp only [get]
        refine ⟨reader.fill, ?_, Or.inr ⟨by omega, ?_⟩⟩
        · exact {
            inside := writing.inside
            reads := reads
            whole := by
              rw [reader.unread_fill]
              exact writing.whole
            pieces := writing.pieces
            count := writing.count
            called := writing.called
            running := writing.running
            returned := writing.returned
            failed := writing.failed }
        · have bound := reader.work_fill
          have progress := reader.work_empty drained
          omega
      · rw [taken] at get reads
        have next := reader.unread_get tmp bytes found
        have less := Nat.le_sub_one_of_lt (reader.work_get tmp bytes found)
        simp only [get]
        refine ⟨_, ?_, Or.inr ⟨by omega, less⟩⟩
        split
        · next within =>
          exact {
            inside := writing.inside
            reads := reads
            whole := by
              rw [List.append_assoc, List.singleton_append, ← next]
              exact writing.whole
            pieces := writing.pieces
            count := writing.count
            called := writing.called
            running := by
              intro _
              exact ⟨left_, Nat.lt_of_lt_of_le within (Nat.le_max_right _ _), ok⟩
            returned := by
              intro ended
              rw [going] at ended
              cases ended
            failed := by
              intro ended
              rw [going] at ended
              cases ended }
        · next full =>
          apply writing_piece len rest answers id sockw reader _ tmp queue writing
            going over_ reads next
          rw [List.length_append, List.length_singleton] at full
          exact Nat.le_of_not_lt full
  · rw [if_pos (Or.inr going)]
    exact ⟨reader, writing, Or.inl going⟩

theorem writing_run (sockw : Sockw n) (reader : Reader)
    (writing : Writing len rest answers sockw reader) (turns : Nat) :
    ∃ later, Writing len rest answers ((atSockwTurn (some answers) id)^[turns] sockw)
        later ∧
      (((atSockwTurn (some answers) id)^[turns] sockw).answer ≠ none ∨
        later.work ≤ reader.work - turns) := by
  induction turns with
  | zero => exact ⟨reader, writing, Or.inr (Nat.le_refl _)⟩
  | succ turns ih =>
      obtain ⟨between, kept, progress⟩ := ih
      rw [Function.iterate_succ_apply']
      obtain ⟨later, next, step⟩ :=
        writing_turn len rest answers id _ between kept
      refine ⟨later, next, ?_⟩
      rcases step with ended | ⟨_, less⟩
      · exact Or.inl ended
      · rcases progress with ended | bound
        · refine Or.inl ?_
          have still : ∀ sockw : Sockw n, sockw.answer ≠ none →
              atSockwTurn (some answers) id sockw = sockw :=
            fun _ ended => if_pos (Or.inr ended)
          rw [still _ ended]
          exact ended
        · refine Or.inr ?_
          omega

/-- In the end the command has returned, or it waits for the bytes of a piece
and has taken everything there is. -/
theorem writing_end (sockw : Sockw n) (reader : Reader)
    (writing : Writing len rest answers sockw reader) :
    ∃ turns later, Writing len rest answers
        ((atSockwTurn (some answers) id)^[turns] sockw) later ∧
      (((atSockwTurn (some answers) id)^[turns] sockw).answer ≠ none ∨
        0 < ((atSockwTurn (some answers) id)^[turns] sockw).len ∧
          later.unread = []) := by
  obtain ⟨between, kept, progress⟩ :=
    writing_run len rest answers id sockw reader writing reader.work
  rcases progress with ended | done
  · exact ⟨reader.work, between, kept, Or.inl ended⟩
  · by_cases going :
        ((atSockwTurn (some answers) id)^[reader.work] sockw).answer = none
    · by_cases more :
          0 < ((atSockwTurn (some answers) id)^[reader.work] sockw).len
      · refine ⟨reader.work, between, kept, Or.inr ⟨more, ?_⟩⟩
        apply Reader.unread_of_work
        omega
      · obtain ⟨later, next, step⟩ :=
          writing_turn len rest answers id _ between kept
        refine ⟨reader.work + 1, later, ?_, Or.inl ?_⟩
        · rw [Function.iterate_succ_apply']
          exact next
        · rw [Function.iterate_succ_apply']
          rcases step with ended | ⟨positive, _⟩
          · exact ended
          · exact absurd positive more
    · exact ⟨reader.work, between, kept, Or.inl going⟩

end Turns

/-! ### The promise and its condition -/

theorem payloadOf_length (stream : List Byte) :
    (payloadOf stream).length ≤ stream.tail.length := by
  unfold payloadOf
  split
  · rw [List.length_tail]
    exact Nat.sub_le _ _
  · exact Nat.le_refl _

theorem payloadOf_crLf (stream : List Byte) (crLf : CrLf stream) :
    (payloadOf stream).length + 1 = stream.tail.length := by
  unfold payloadOf
  rw [if_pos crLf, List.length_tail]
  cases behind : stream.tail with
  | nil =>
      have feed := crLf.2
      rw [behind] at feed
      cases feed
  | cons feed rest => rfl

section Promise

variable (len : Nat) (stream : List Byte) (answers : Nat → AtErrorCode)

theorem writing_taken (sockw : Sockw n) (reader : Reader)
    (writing : Writing len stream.tail answers sockw reader)
    (clean : SockwClean len stream answers) (ended : sockw.answer ≠ none) :
    sockw.buf = [] ∧ sockw.sent.length = len := by
  cases answer : sockw.answer with
  | none => exact absurd answer ended
  | some answered =>
      cases answered with
      | ok =>
          obtain ⟨empty, all, _⟩ := writing.returned answer
          exact ⟨empty, all⟩
      | sendFail =>
          obtain ⟨empty, index, calls, refused, _⟩ := writing.failed answer
          refine ⟨empty, ?_⟩
          have count := writing.count
          have whole := congrArg List.length writing.whole
          rw [List.length_append] at whole
          rw [calls] at count
          by_contra less
          exact refused (clean.2 index (by omega) (by omega))

/-- Under the condition the first piece begins behind the line end. -/
theorem writing_behind (sockw : Sockw n) (reader : Reader)
    (writing : Writing len stream.tail answers sockw reader)
    (clean : SockwClean len stream answers) (some_ : sockw.sent ≠ []) :
    stream.tail = payloadOf stream := by
  unfold payloadOf
  by_cases crLf : CrLf stream
  · have count := writing.count
    have size : AT_SOCKET_BUFFER_SIZE = 1024 := rfl
    have positive := List.length_pos_of_ne_nil some_
    have whole := congrArg List.length writing.whole
    have short := clean.1 crLf (by omega)
    rw [List.length_append] at whole
    rw [size] at count short
    omega
  · rw [if_neg crLf]

theorem writing_promise (sockw : Sockw n) (reader : Reader)
    (writing : Writing len stream.tail answers sockw reader)
    (clean : SockwClean len stream answers) :
    SockwPromise len (payloadOf stream) sockw := by
  have size : AT_SOCKET_BUFFER_SIZE = 1024 := rfl
  have unread := reads_unread _ _ writing.reads
  have whole := writing.whole
  refine ⟨writing.inside, writing.pieces, ?_, ?_⟩
  · intro called
    have some_ : sockw.sent ≠ [] := by
      intro nothing
      have count := writing.count
      have positive := writing.called called
      have calls := List.length_pos_of_ne_nil called
      rw [nothing, size, List.length_nil] at count
      omega
    rw [unread, whole]
    exact writing_behind len stream answers sockw reader writing clean some_
  · intro ended
    obtain ⟨empty, all⟩ :=
      writing_taken len stream answers sockw reader writing clean ended
    rw [empty, List.nil_append] at whole
    have total := congrArg List.length whole
    rw [List.length_append] at total
    rw [unread]
    by_cases nothing : sockw.sent = []
    · have bound := payloadOf_length stream
      rw [nothing, List.length_nil] at all total
      omega
    · rw [← writing_behind len stream answers sockw reader writing clean nothing]
      omega

theorem clean_of_promise (sockw : Sockw n) (reader : Reader)
    (writing : Writing len stream.tail answers sockw reader)
    (last : sockw.answer ≠ none ∨ 0 < sockw.len ∧ reader.unread = [])
    (promise : SockwPromise len (payloadOf stream) sockw) :
    SockwClean len stream answers := by
  have size : AT_SOCKET_BUFFER_SIZE = 1024 := rfl
  have rlen : sockw.rlen = min sockw.len.toNat 1024 := rfl
  have unread := reads_unread _ _ writing.reads
  have count := writing.count
  have total := congrArg List.length writing.whole
  rw [List.length_append, List.length_append] at total
  rw [size] at count
  constructor
  · intro crLf positive
    by_contra enough
    rw [size] at enough
    have called : sockw.calls ≠ [] := by
      intro nothing
      rw [nothing, List.length_nil, Nat.mul_zero, Nat.min_zero] at count
      cases answer : sockw.answer with
      | none =>
          obtain ⟨left_, short, _⟩ := writing.running answer
          rw [answer, ne_self_iff_false, false_or] at last
          rw [last.2, List.length_nil] at total
          omega
      | some answered =>
          cases answered with
          | ok =>
              have all := (writing.returned answer).2.1
              omega
          | sendFail =>
              obtain ⟨_, index, calls, _⟩ := writing.failed answer
              rw [nothing] at calls
              cases calls
    have whole := congrArg List.length (promise.whole called)
    rw [List.length_append, List.length_append, unread, total,
      ← payloadOf_crLf stream crLf] at whole
    omega
  · intro index below within
    rw [size] at below within
    have bound := payloadOf_length stream
    cases answer : sockw.answer with
    | none =>
        obtain ⟨left_, short, ok⟩ := writing.running answer
        rw [answer, ne_self_iff_false, false_or] at last
        rw [last.2, List.length_nil] at total
        apply ok
        omega
    | some answered =>
        have taken := promise.taken (by rw [answer]; exact Option.some_ne_none _)
        rw [unread] at taken
        cases answered with
        | ok =>
            obtain ⟨empty, all, ok⟩ := writing.returned answer
            apply ok
            omega
        | sendFail =>
            obtain ⟨empty, failed, calls, _, ok⟩ := writing.failed answer
            rw [empty, List.length_nil] at total
            apply ok
            omega

/-- `at_sockw` on a stream that it reads behind its first character. -/
theorem atSockw_promise_iff (id : Int) (queue : AtQueue n) (reader : Reader)
    (reads : Reads queue reader) (given : BitVec 32)
    (positive : given.toInt = given.toNat) (behind : reader.unread = stream.tail) :
    (∀ turns, SockwPromise given.toNat (payloadOf stream)
        ((atSockwTurn (some answers) id)^[turns] (atSockwStart queue given))) ↔
      SockwClean given.toNat stream answers := by
  have start := writing_start answers queue reader reads given positive
  rw [behind] at start
  constructor
  · intro promise
    obtain ⟨turns, later, writing, last⟩ := writing_end _ _ answers id _ _ start
    exact clean_of_promise _ stream answers _ later writing last (promise turns)
  · intro clean turns
    obtain ⟨later, writing, _⟩ := writing_run _ _ answers id _ _ start turns
    exact writing_promise _ stream answers _ later writing clean

end Promise

end XR872.AtCmd
