/-
The data mode of `at_mode`.

A piece is what the queue gives until it is empty or `at_socket_buf` is full.
A piece that begins with the escape sequence and has at most two bytes more
ends the mode, whatever these bytes are; every other piece, an empty one too,
goes to the callback.
-/

import XR872.AtCmd.Parameter
import XR872.AtCmd.Queue
import XR872.Library.Run

namespace XR872.AtCmd

open BitView
open Buffers
open Rings
open Runs

variable {n : Nat}

def AT_SOCKET_BUFFER_SIZE : Nat := 1024

/-- Whether `strncmp` answers 0. Neither text is read behind its end. -/
def strncmpSame : Nat → List Byte → List Byte → Bool
  | 0, _, _ => true
  | count + 1, left :: lefts, right :: rights =>
      if left = right then
        if left = 0 then true else strncmpSame count lefts rights
      else false
  | _ + 1, _, _ => false

/-- `at_mode` between two turns of its outer loop. -/
structure DataMode (n : Nat) where
  queue : AtQueue n
  /-- What ACC_MODE was called with, `buf` as far as `len`, oldest first. -/
  forwarded : List (List Byte)
  /-- "Exit data mode." -/
  exited : Bool
  /-- The queue left its ring. -/
  outside : Bool
deriving DecidableEq, Repr

/-- `at_mode` entered with a callback. -/
def atModeStart (queue : AtQueue n) : DataMode n :=
  { queue, forwarded := [], exited := false, outside := false }

/-- The inner loop, with the room left in `at_socket_buf`. -/
def atModePiece : Nat → List Byte → AtQueue n → Option (List Byte × AtQueue n)
  | 0, buf, queue => some (buf, queue)
  | room + 1, buf, queue =>
      match atQueueGet queue with
      | none => none
      | some (.ok tmp, queue) => atModePiece room (buf ++ [tmp]) queue
      | some (.empty, queue) => some (buf, queue)

def atModeEscape (escape_seq buf : List Byte) : Bool :=
  let escape_len := (cString escape_seq).length
  decide (2 < buf.length ∧
    (escape_len ≤ buf.length ∧ buf.length ≤ escape_len + 2)) &&
    strncmpSame escape_len escape_seq buf

/-- One turn of the outer loop, with what `handle_cb` answers in it. -/
def atModeTurn (escape_seq : List Byte) (mode : DataMode n)
    (answer : AtErrorCode) : DataMode n :=
  if mode.outside ∨ mode.exited then mode
  else
    match atModePiece AT_SOCKET_BUFFER_SIZE [] mode.queue with
    | none => { mode with outside := true }
    | some (buf, queue) =>
        if atModeEscape escape_seq buf then { mode with queue, exited := true }
        else
          { mode with
            queue
            forwarded := mode.forwarded ++ [buf]
            exited := decide (answer ≠ .ok) }

/-! ### The pieces of a stream -/

namespace Reader

def piece : Nat → List Byte → Reader → List Byte × Reader
  | 0, buf, reader => (buf, reader)
  | room + 1, buf, reader =>
      match reader.get with
      | (.ok tmp, reader) => piece room (buf ++ [tmp]) reader
      | (.empty, reader) => (buf, reader)

/-- The reader after so many pieces. -/
def behind : Nat → Reader → Reader
  | 0, reader => reader
  | turns + 1, reader => ((behind turns reader).piece AT_SOCKET_BUFFER_SIZE []).2

def pieceAt (reader : Reader) (turn : Nat) : List Byte :=
  ((reader.behind turn).piece AT_SOCKET_BUFFER_SIZE []).1

theorem piece_unread (room : Nat) (buf : List Byte) (reader : Reader) :
    (reader.piece room buf).1 ++ (reader.piece room buf).2.unread =
      buf ++ reader.unread := by
  induction room generalizing buf reader with
  | zero => rfl
  | succ room ih =>
      unfold piece
      rcases reader.get_cases with ⟨nothing, _⟩ | ⟨tmp, rest, found, taken⟩
      · rw [nothing]
        exact congrArg (buf ++ ·) reader.unread_fill
      · rw [taken]
        refine (ih _ _).trans ?_
        rw [reader.unread_get tmp rest found, List.append_assoc,
          List.singleton_append]

theorem piece_work (room : Nat) (buf : List Byte) (reader : Reader) :
    (reader.piece room buf).2.work ≤ reader.work := by
  induction room generalizing buf reader with
  | zero => exact Nat.le_refl _
  | succ room ih =>
      unfold piece
      rcases reader.get_cases with ⟨nothing, _⟩ | ⟨tmp, rest, found, taken⟩
      · rw [nothing]
        exact reader.work_fill
      · rw [taken]
        exact (ih _ _).trans (reader.work_get tmp rest found).le

theorem piece_work_less (room : Nat) (buf : List Byte) (reader : Reader) :
    (reader.piece (room + 1) buf).2.work ≤ reader.work - 1 := by
  unfold piece
  rcases reader.get_cases with ⟨nothing, drained⟩ | ⟨tmp, rest, found, taken⟩
  · rw [nothing]
    change reader.fill.work ≤ reader.work - 1
    have bound := reader.work_fill
    have progress := reader.work_empty drained
    omega
  · rw [taken]
    exact (piece_work room (buf ++ [tmp]) _).trans
      (Nat.le_sub_one_of_lt (reader.work_get tmp rest found))

theorem pieces_unread (turns : Nat) (reader : Reader) :
    ((List.range turns).map reader.pieceAt).flatten ++
      (reader.behind turns).unread = reader.unread := by
  induction turns with
  | zero => rfl
  | succ turns ih =>
      have next := (reader.behind turns).piece_unread AT_SOCKET_BUFFER_SIZE []
      rw [List.range_succ, List.map_append, List.flatten_append,
        List.append_assoc, List.map_singleton, List.flatten_singleton]
      exact (congrArg _ next).trans ih

theorem behind_work (turns : Nat) (reader : Reader) :
    (reader.behind turns).work ≤ reader.work - turns := by
  induction turns with
  | zero => exact Nat.le_refl _
  | succ turns ih =>
      have less := (reader.behind turns).piece_work_less 1023 []
      change (reader.behind (turns + 1)).work ≤ _ at less
      omega

theorem unread_of_work (reader : Reader) (done : reader.work = 0) :
    reader.unread = [] :=
  List.eq_nil_of_length_eq_zero (Nat.eq_zero_of_add_eq_zero_right done)

end Reader

theorem atModePiece_reads (room : Nat) (buf : List Byte) (queue : AtQueue n)
    (reader : Reader) (reads : Reads queue reader) :
    ∃ next, atModePiece room buf queue =
        some ((reader.piece room buf).1, next) ∧
      Reads next (reader.piece room buf).2 := by
  induction room generalizing buf queue reader with
  | zero => exact ⟨queue, rfl, reads⟩
  | succ room ih =>
      obtain ⟨next, get, kept⟩ := atQueueGet_reads queue reader reads
      unfold atModePiece Reader.piece
      rcases reader.get_cases with ⟨nothing, _⟩ | ⟨tmp, rest, _, taken⟩
      · rw [nothing] at get kept
        rw [get, nothing]
        exact ⟨next, rfl, kept⟩
      · rw [taken] at get kept
        rw [get, taken]
        exact ih (buf ++ [tmp]) next _ kept

/-! ### The escape test -/

theorem strncmpSame_iff (count : Nat) (text buf : List Byte)
    (plain : count ≤ (cString text).length) :
    strncmpSame count text buf = true ↔ text.take count <+: buf := by
  induction count generalizing text buf with
  | zero => exact iff_of_true rfl List.nil_prefix
  | succ count ih =>
      cases text with
      | nil => exact absurd plain (Nat.not_succ_le_zero count)
      | cons left lefts =>
          have visible : left ≠ 0 := by
            intro ended
            rw [cString, List.takeWhile_cons_of_neg (by simp [ended])] at plain
            exact Nat.not_succ_le_zero count plain
          have rest : count ≤ (cString lefts).length := by
            rw [cString, List.takeWhile_cons_of_pos (by simpa using visible)]
              at plain
            exact Nat.le_of_succ_le_succ plain
          cases buf with
          | nil => simp [strncmpSame]
          | cons right rights =>
              rw [List.take_succ_cons, List.cons_prefix_cons, ← ih _ _ rest,
                strncmpSame]
              by_cases same : left = right
              · rw [if_pos same, if_neg visible, and_iff_right same]
              · rw [if_neg same]
                exact iff_of_false Bool.false_ne_true fun both => same both.1

theorem take_cString (text : List Byte) :
    text.take (cString text).length = cString text :=
  (List.prefix_iff_eq_take.mp (List.takeWhile_prefix _)).symm

/-- What the code takes for the escape sequence: the length is right, and the
bytes behind the sequence are not looked at. -/
def TakenForEscape (escape piece : List Byte) : Prop :=
  2 < piece.length ∧ piece.length ≤ escape.length + 2 ∧ escape <+: piece

instance (escape piece : List Byte) : Decidable (TakenForEscape escape piece) :=
  inferInstanceAs (Decidable (_ ∧ _))

theorem atModeEscape_iff (escape_seq buf : List Byte) :
    atModeEscape escape_seq buf = true ↔
      TakenForEscape (cString escape_seq) buf := by
  have found := strncmpSame_iff (cString escape_seq).length escape_seq buf
    (Nat.le_refl _)
  rw [take_cString] at found
  unfold atModeEscape TakenForEscape
  rw [Bool.and_eq_true, decide_eq_true_iff, found]
  constructor
  · intro ⟨⟨long, _, short⟩, begins⟩
    exact ⟨long, short, begins⟩
  · intro ⟨long, short, begins⟩
    exact ⟨⟨long, begins.length_le, short⟩, begins⟩

/-! ### What data mode is for -/

/-- The escape sequence with nothing but line ends behind it. -/
def EscapePiece (escape piece : List Byte) : Prop :=
  escape <+: piece ∧
    ∀ char ∈ piece.drop escape.length, char = AT_CR ∨ char = AT_LF

instance (escape piece : List Byte) : Decidable (EscapePiece escape piece) :=
  inferInstanceAs (Decidable (_ ∧ ∀ char ∈ _, _))

def CheckedEscape (escape piece : List Byte) : Prop :=
  EscapePiece escape piece ∧ 2 < piece.length ∧
    piece.length ≤ escape.length + 2

instance (escape piece : List Byte) : Decidable (CheckedEscape escape piece) :=
  inferInstanceAs (Decidable (_ ∧ _))

/-- What was forwarded is the stream up to the first piece that ends the mode,
and that piece is left out. -/
structure Forwards (ends : List Byte → Prop) (stream : List Byte)
    (mode : DataMode n) : Prop where
  inside : mode.outside = false
  whole : ∃ last, mode.forwarded.flatten ++ (last ++ mode.queue.unread) = stream ∧
    if mode.exited then ends last else last = []
  kept : ∀ sent ∈ mode.forwarded, ¬ ends sent

/-- Up to its first checked escape the stream has no piece that the code takes
for the escape sequence although other bytes are behind it. -/
def Unmistaken (escape : List Byte) (reader : Reader) (turns : Nat) : Prop :=
  ∀ turn < turns,
    (∀ earlier < turn, ¬ CheckedEscape escape (reader.pieceAt earlier)) →
      TakenForEscape escape (reader.pieceAt turn) →
        EscapePiece escape (reader.pieceAt turn)

/-! ### Turns and runs -/

/-- The mode after some turns: so many pieces are forwarded, and the one behind
them ended the mode, or there was a piece for each turn. -/
def Pumped (escape : List Byte) (reader : Reader) (turns : Nat)
    (mode : DataMode n) : Prop :=
  mode.outside = false ∧ ∃ count,
    mode.forwarded = (List.range count).map reader.pieceAt ∧
    (∀ turn < count, ¬ TakenForEscape escape (reader.pieceAt turn)) ∧
    if mode.exited then
      count < turns ∧ TakenForEscape escape (reader.pieceAt count) ∧
        Reads mode.queue (reader.behind (count + 1))
    else count = turns ∧ Reads mode.queue (reader.behind count)

theorem pumped_start (escape : List Byte) (queue : AtQueue n) (reader : Reader)
    (reads : Reads queue reader) :
    Pumped escape reader 0 (atModeStart queue) := by
  refine ⟨rfl, 0, rfl, ?_, rfl, reads⟩
  intro turn below
  exact absurd below (Nat.not_lt_zero turn)

/-- A turn whose call is answered with `AEC_OK`. -/
theorem pumped_turn (escape_seq : List Byte) (reader : Reader) (turns : Nat)
    (mode : DataMode n) (pumped : Pumped (cString escape_seq) reader turns mode) :
    Pumped (cString escape_seq) reader (turns + 1)
      (atModeTurn escape_seq mode .ok) := by
  obtain ⟨inside, count, forwarded, before, now⟩ := pumped
  unfold atModeTurn
  cases left_ : mode.exited with
  | true =>
      rw [if_pos (Or.inr rfl)]
      rw [left_, if_pos rfl] at now
      refine ⟨inside, count, forwarded, before, ?_⟩
      rw [left_, if_pos rfl]
      exact ⟨Nat.lt_succ_of_lt now.1, now.2⟩
  | false =>
      rw [left_, if_neg Bool.false_ne_true] at now
      obtain ⟨every, reads⟩ := now
      obtain ⟨next, formed, kept⟩ :=
        atModePiece_reads AT_SOCKET_BUFFER_SIZE [] _ _ reads
      change _ = some (reader.pieceAt count, next) at formed
      rw [inside, if_neg (by simp)]
      simp only [formed]
      by_cases escaped : atModeEscape escape_seq (reader.pieceAt count) = true
      · rw [if_pos escaped]
        refine ⟨rfl, count, forwarded, before, ?_⟩
        rw [if_pos rfl]
        exact ⟨Nat.lt_succ_of_le every.le, (atModeEscape_iff _ _).mp escaped, kept⟩
      · rw [if_neg escaped]
        refine ⟨rfl, count + 1, ?_, ?_, ?_⟩
        · rw [List.range_succ, List.map_append, forwarded]
          rfl
        · intro turn below
          rcases Nat.lt_succ_iff_lt_or_eq.mp below with earlier | same
          · exact before turn earlier
          · rw [same]
            exact fun taken => escaped ((atModeEscape_iff _ _).mpr taken)
        · exact ⟨congrArg (· + 1) every, kept⟩

theorem pumped_run (escape_seq : List Byte) (reader : Reader) (turns : Nat)
    (mode : DataMode n) (answers : List AtErrorCode)
    (ok : ∀ answer ∈ answers, answer = .ok)
    (pumped : Pumped (cString escape_seq) reader turns mode) :
    Pumped (cString escape_seq) reader (turns + answers.length)
      (run (atModeTurn escape_seq) mode answers) := by
  induction answers generalizing turns mode with
  | nil => exact pumped
  | cons answer rest ih =>
      have first : answer = .ok := ok answer List.mem_cons_self
      subst first
      rw [List.length_cons, Nat.add_comm rest.length, ← Nat.add_assoc]
      exact ih (turns + 1) _
        (fun answer member => ok answer (List.mem_cons_of_mem _ member))
        (pumped_turn escape_seq reader turns mode pumped)

/-- Where the pieces before the end are told apart by either predicate, what is
forwarded is told by either. -/
theorem forwards_pumped (ends : List Byte → Prop) (escape : List Byte)
    (reader : Reader) (turns : Nat) (mode : DataMode n)
    (taken : ∀ piece, ends piece → TakenForEscape escape piece)
    (first : ∀ turn < turns,
      (∀ earlier < turn, ¬ ends (reader.pieceAt earlier)) →
        TakenForEscape escape (reader.pieceAt turn) → ends (reader.pieceAt turn))
    (pumped : Pumped escape reader turns mode) :
    Forwards ends reader.unread mode := by
  obtain ⟨inside, count, forwarded, before, now⟩ := pumped
  have none_ends : ∀ turn < count, ¬ ends (reader.pieceAt turn) :=
    fun turn below ended => before turn below (taken _ ended)
  have pieces := reader.pieces_unread count
  have last := (reader.behind count).piece_unread AT_SOCKET_BUFFER_SIZE []
  change reader.pieceAt count ++ (reader.behind (count + 1)).unread = _ at last
  refine ⟨inside, ?_, ?_⟩
  · cases left_ : mode.exited with
    | true =>
        rw [left_, if_pos rfl] at now
        obtain ⟨below, escaped, reads⟩ := now
        refine ⟨reader.pieceAt count, ?_, first count below none_ends escaped⟩
        rw [forwarded, reads_unread _ _ reads, last, List.nil_append, pieces]
    | false =>
        rw [left_, if_neg Bool.false_ne_true] at now
        refine ⟨[], ?_, rfl⟩
        rw [forwarded, reads_unread _ _ now.2, List.nil_append, pieces]
  · intro sent member
    rw [forwarded] at member
    obtain ⟨turn, below, same⟩ := List.mem_map.mp member
    rw [← same]
    exact none_ends turn (List.mem_range.mp below)

theorem atMode_forwards_taken (escape_seq : List Byte) (queue : AtQueue n)
    (reader : Reader) (reads : Reads queue reader) (answers : List AtErrorCode)
    (ok : ∀ answer ∈ answers, answer = .ok) :
    Forwards (TakenForEscape (cString escape_seq)) reader.unread
      (run (atModeTurn escape_seq) (atModeStart queue) answers) := by
  have pumped := pumped_run escape_seq reader 0 _ answers ok
    (pumped_start (cString escape_seq) queue reader reads)
  exact forwards_pumped _ _ reader _ _ (fun _ same => same)
    (fun _ _ _ same => same) pumped

/-- Data mode forwards every byte up to the first escape sequence that ends
it. -/
theorem atMode_forwards (escape_seq : List Byte) (queue : AtQueue n)
    (reader : Reader) (reads : Reads queue reader) (answers : List AtErrorCode)
    (ok : ∀ answer ∈ answers, answer = .ok)
    (unmistaken : Unmistaken (cString escape_seq) reader answers.length) :
    let mode := run (atModeTurn escape_seq) (atModeStart queue) answers
    Forwards (CheckedEscape (cString escape_seq)) reader.unread mode ∧
      (mode.exited = false →
        mode.forwarded.length = answers.length ∧
          (reader.work ≤ answers.length → mode.queue.unread = [])) := by
  have pumped := pumped_run escape_seq reader 0 _ answers ok
    (pumped_start (cString escape_seq) queue reader reads)
  rw [Nat.zero_add] at pumped
  constructor
  · apply forwards_pumped _ _ reader _ _ ?_ ?_ pumped
    · exact fun piece ended => ⟨ended.2.1, ended.2.2, ended.1.1⟩
    · intro turn below earlier taken
      exact ⟨unmistaken turn below earlier taken, taken.1, taken.2.1⟩
  · intro still
    obtain ⟨_, count, forwarded, _, now⟩ := pumped
    rw [still, if_neg Bool.false_ne_true] at now
    obtain ⟨every, last⟩ := now
    refine ⟨?_, ?_⟩
    · rw [forwarded, List.length_map, List.length_range, every]
    · intro enough
      have less := reader.behind_work count
      rw [reads_unread _ _ last]
      apply Reader.unread_of_work
      omega

/-! ### Some streams -/

def defaultEscape : List Byte := charBytes "at+s." ++ [0, 0, 0]

/-- A queue whose callback has these bytes for its first call. -/
def dataQueue (size : Nat) (bytes : List Byte) (winbuf : bytes.length ≤ 32) :
    AtQueue size :=
  { ring := Ring.start (Buffer.fill size 0)
    qcnt := 0
    callback := some [{ bytes, winbuf }] }

/-- Begins like the escape sequence, and then the sequence itself. -/
theorem atMode_forwards_begun :
    let reader : Reader :=
      { ready := []
        coming :=
          [ { bytes := charBytes "at+sat", winbuf := Nat.le_of_ble_eq_true rfl },
            { bytes := [], winbuf := Nat.zero_le _ },
            { bytes := charBytes "at+s.\r\n", winbuf := Nat.le_of_ble_eq_true rfl } ] }
    ∃ queue : AtQueue 32, Reads queue reader ∧
      Forwards (CheckedEscape (cString defaultEscape)) reader.unread
        (run (atModeTurn defaultEscape) (atModeStart queue) [.ok, .ok, .ok]) := by
  obtain ⟨queue, _, reads⟩ := reads_init (Buffer.fill 32 0)
    [ { bytes := charBytes "at+sat", winbuf := Nat.le_of_ble_eq_true rfl },
      { bytes := [], winbuf := Nat.zero_le _ },
      { bytes := charBytes "at+s.\r\n", winbuf := Nat.le_of_ble_eq_true rfl } ]
    (by decide)
  refine ⟨queue, reads, (atMode_forwards defaultEscape queue _ reads
    [.ok, .ok, .ok] (by decide) ?_).1⟩
  intro turn below _ taken
  have cases : turn = 0 ∨ turn = 1 ∨ turn = 2 := by
    change turn < 3 at below
    omega
  rcases cases with zero | one | two
  · subst zero
    revert taken
    decide
  · subst one
    decide
  · subst two
    revert taken
    decide

/-- An escape sequence of one character is forwarded, so is one with three line
ends behind it; one with two other bytes behind it is lost; and of a delivery
that is larger than the ring a byte of the ring takes the place. -/
theorem data_not_forwarded :
    ¬ Forwards (EscapePiece (charBytes "+")) (charBytes "+")
        (run (atModeTurn (charBytes "+" ++ [0]))
          (atModeStart (dataQueue 32 (charBytes "+")
            (Nat.le_of_ble_eq_true rfl))) [.ok]) ∧
      ¬ Forwards (EscapePiece (cString defaultEscape))
        (charBytes "at+s.\n\n\n")
        (run (atModeTurn defaultEscape)
          (atModeStart (dataQueue 32 (charBytes "at+s.\n\n\n")
            (Nat.le_of_ble_eq_true rfl))) [.ok]) ∧
      ¬ Forwards (EscapePiece (cString defaultEscape)) (charBytes "at+s.ok")
        (run (atModeTurn defaultEscape)
          (atModeStart (dataQueue 32 (charBytes "at+s.ok")
            (Nat.le_of_ble_eq_true rfl))) [.ok]) ∧
      ¬ Forwards (EscapePiece (cString defaultEscape)) (charBytes "abc")
        (run (atModeTurn defaultEscape)
          (atModeStart (dataQueue 2 (charBytes "abc")
            (Nat.le_of_ble_eq_true rfl))) [.ok]) := by
  refine ⟨?_, ?_, ?_, ?_⟩
  · exact fun forwards =>
      forwards.kept (charBytes "+") (by decide) (by decide)
  · exact fun forwards =>
      forwards.kept (charBytes "at+s.\n\n\n") (by decide) (by decide)
  · intro forwards
    obtain ⟨last, whole, ends⟩ := forwards.whole
    have sent : (run (atModeTurn defaultEscape)
        (atModeStart (dataQueue 32 (charBytes "at+s.ok")
          (Nat.le_of_ble_eq_true rfl))) [.ok]).forwarded = [] := by decide
    have unread : (run (atModeTurn defaultEscape)
        (atModeStart (dataQueue 32 (charBytes "at+s.ok")
          (Nat.le_of_ble_eq_true rfl))) [.ok]).queue.unread = [] := by decide
    rw [sent, unread, List.append_nil] at whole
    change last = charBytes "at+s.ok" at whole
    rw [whole, if_pos (by decide)] at ends
    revert ends
    decide
  · intro forwards
    obtain ⟨last, whole, _⟩ := forwards.whole
    have sent : (run (atModeTurn defaultEscape)
        (atModeStart (dataQueue 2 (charBytes "abc")
          (Nat.le_of_ble_eq_true rfl))) [.ok]).forwarded = [[0]] := by decide
    rw [sent] at whole
    have first := congrArg List.head? whole
    change some (0 : Byte) = some 0x61#8 at first
    revert first
    decide

end XR872.AtCmd
