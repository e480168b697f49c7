/-
Responses to commands.

A response is printed into a buffer of 400 bytes by three calls that each leave
a pointer and a remaining size to the next, and is then written to the console.
-/

import XR872.AtCmd.ValueText
import XR872.Library.MachineInt
import XR872.Library.Memory

namespace XR872.Console

open AtCmd
open BitView
open MachineInts
open Memories

inductive CmdCodeType where
  | status
  | event
deriving DecidableEq, Repr

/-- `sizeof(str_buf)` in `cmd_write`. -/
def strBufSize : Nat := 400

def newline : List Byte := [0x0A]

/-- A `size_t` argument made of an `int`. -/
def toSize (number : Int) : Nat := (number % 2 ^ 32).toNat

/-- Memory from `str_buf` on, and the place and size of each store. -/
structure Print where
  memory : Nat → Byte
  stores : List (Nat × Nat)

/-- What the printing functions return: the length of the whole text, or a
negative number if that is none of an `int`. -/
def printed (text : List Byte) : Int :=
  if text.length < 2 ^ 31 then text.length else -1

/-- `snprintf` and `vsnprintf`, for a format that expands to `text`. -/
def snprintf (out : Print) (ptr : Int) (size : Nat) (text : List Byte) :
    Print × Int :=
  if size = 0 then (out, printed text)
  else
    let data := text.take (size - 1) ++ [0]
    ({ memory := store out.memory ptr.toNat data,
       stores := out.stores ++ [(ptr.toNat, data.length)] }, printed text)

/-- `"<%s> %d "`. -/
def responseHead (type : CmdCodeType) (code : BitVec 32) : List Byte :=
  charBytes (if type = .status then "<ACK> " else "<EVT> ") ++
    charBytes (toString code.toInt) ++ charBytes " "

/-- The call of `console_write` at the end of `cmd_write`. -/
structure Response where
  strBuf : Print
  len : Int

/-- `cmd_write`, for a format that expands to `message`. -/
def cmdWrite (memory : Nat → Byte) (type : CmdCodeType) (code : BitVec 32)
    (message : List Byte) : Response :=
  let ptr := 0
  let left := (strBufSize : Int) - 1 -- one byte for the newline
  let (out, len) := snprintf { memory := memory, stores := [] } ptr (toSize left)
    (responseHead type code)
  let ptr := ptr + len
  let left := left - len
  let (out, len) := snprintf out ptr (toSize left) message
  let ptr := ptr + len
  let left := left - len
  let left := left + 1
  let (out, len) := snprintf out ptr (toSize left) newline
  let left := left - len
  { strBuf := out, len := (BitVec.ofInt 32 (strBufSize - left)).toInt }

/-- The bytes that `console_write` is given. -/
def Response.sent (response : Response) : List Byte :=
  load response.strBuf.memory 0 response.len.toNat

def wholeResponse (type : CmdCodeType) (code : BitVec 32)
    (message : List Byte) : List Byte :=
  responseHead type code ++ message ++ newline

/-- The response stays in its buffer, and what is sent is the head, the message
or what there is room for of it, and a newline. -/
structure Bounded (type : CmdCodeType) (code : BitVec 32) (message : List Byte)
    (response : Response) : Prop where
  inside : ∀ place ∈ response.strBuf.stores, place.1 + place.2 ≤ strBufSize
  length : response.len ≤ strBufSize
  sent : ∃ kept, kept <+: message ∧
    ((wholeResponse type code message).length ≤ strBufSize → kept = message) ∧
    response.sent = wholeResponse type code kept

/-! ### Status texts -/

def cmdStatusSuccessMin : Int := 200

def cmdStatusSuccessMax : Int := 200

def cmdStatusErrorMin : Int := 400

def cmdStatusErrorMax : Int := 402

def cmdStatusSuccessDesc : List String := ["OK"]

def cmdStatusErrorDesc : List String :=
  ["Unknown command", "Invalid argument", "Fail"]

def cmdEmptyDesc : String := ""

/-- `cmd_get_status_desc`; a place outside of its table has no text. -/
def cmdGetStatusDesc (status : BitVec 32) : Option String :=
  if cmdStatusSuccessMin ≤ status.toInt ∧ status.toInt ≤ cmdStatusSuccessMax then
    cmdStatusSuccessDesc[(status.toInt - cmdStatusSuccessMin).toNat]?
  else if cmdStatusErrorMin ≤ status.toInt ∧ status.toInt ≤ cmdStatusErrorMax then
    cmdStatusErrorDesc[(status.toInt - cmdStatusErrorMin).toNat]?
  else some cmdEmptyDesc

theorem cmdGetStatusDesc_short (status : BitVec 32) :
    ∃ desc, cmdGetStatusDesc status = some desc ∧
      (charBytes desc).length ≤ 16 := by
  unfold cmdGetStatusDesc
  split_ifs with success error
  · have place : (status.toInt - cmdStatusSuccessMin).toNat = 0 := by
      unfold cmdStatusSuccessMin cmdStatusSuccessMax at *
      omega
    rw [place]
    exact ⟨_, rfl, by decide⟩
  · have place : (status.toInt - cmdStatusErrorMin).toNat < 3 := by
      unfold cmdStatusErrorMin cmdStatusErrorMax at *
      omega
    have all : ∀ index < 3, ∃ desc, cmdStatusErrorDesc[index]? = some desc ∧
        (charBytes desc).length ≤ 16 := by
      intro index below
      interval_cases index
      all_goals exact ⟨_, rfl, by decide⟩
    exact all _ place
  · exact ⟨_, rfl, by decide⟩

/-! ### The three calls -/

theorem printed_eq (text : List Byte) (short : text.length < 2 ^ 31) :
    printed text = text.length := if_pos short

/-- The digits of an `int` and its sign. -/
theorem intText_length (code : BitVec 32) :
    1 ≤ (charBytes (toString code.toInt)).length ∧
      (charBytes (toString code.toInt)).length ≤ 11 := by
  have range := toInt_range_32 code
  cases cases_code : code.toInt with
  | ofNat num =>
      have value : code.toInt = (num : Int) := cases_code
      change 1 ≤ (decText num).length ∧ (decText num).length ≤ 11
      have low := decText_length_pos num
      have high := decText_length_le num 10 (by decide) (by omega)
      omega
  | negSucc num =>
      have value : code.toInt = -((num : Int) + 1) := by omega
      have text : charBytes (toString (Int.negSucc num)) =
          charBytes "-" ++ decText (num + 1) := by
        unfold decText charBytes
        rw [← List.map_append, ← String.toList_append]
        rfl
      have low := decText_length_pos (num + 1)
      have high := decText_length_le (num + 1) 10 (by decide) (by omega)
      have sign : (charBytes "-").length = 1 := rfl
      rw [text, List.length_append, sign]
      omega

theorem responseHead_length (type : CmdCodeType) (code : BitVec 32) :
    8 ≤ (responseHead type code).length ∧
      (responseHead type code).length ≤ 18 := by
  have digits := intText_length code
  unfold responseHead
  rw [List.length_append, List.length_append]
  cases type with
  | status =>
      have mark : (charBytes "<ACK> ").length = 6 := rfl
      have blank : (charBytes " ").length = 1 := rfl
      rw [if_pos rfl, mark, blank]
      omega
  | event =>
      have mark : (charBytes "<EVT> ").length = 6 := rfl
      have blank : (charBytes " ").length = 1 := rfl
      rw [if_neg (by decide), mark, blank]
      omega

theorem snprintf_whole (out : Print) (ptr : Int) (size : Nat)
    (text : List Byte) (room : text.length < size) (small : size < 2 ^ 31) :
    snprintf out ptr size text =
      ({ memory := store out.memory ptr.toNat (text ++ [0]),
         stores := out.stores ++ [(ptr.toNat, text.length + 1)] },
        (text.length : Int)) := by
  unfold snprintf
  dsimp only
  rw [if_neg (by omega), List.take_of_length_le (by omega),
    printed_eq text (by omega), List.length_append, List.length_singleton]

@[simp] theorem snprintf_returned (out : Print) (ptr : Int) (size : Nat)
    (text : List Byte) : (snprintf out ptr size text).2 = printed text := by
  unfold snprintf
  split_ifs
  all_goals rfl

/-- The memory and the stores once the head is printed. -/
def headPrint (memory : Nat → Byte) (type : CmdCodeType) (code : BitVec 32) :
    Print :=
  { memory := store memory 0 (responseHead type code ++ [0]),
    stores := [(0, (responseHead type code).length + 1)] }

/-- The memory and the stores once the message is printed behind the head. -/
def messagePrint (memory : Nat → Byte) (type : CmdCodeType) (code : BitVec 32)
    (message : List Byte) : Print :=
  (snprintf (headPrint memory type code) (responseHead type code).length
    (strBufSize - 1 - (responseHead type code).length) message).1

/-- The last call, where the first two have printed `total` bytes by their
return values. -/
theorem cmdWrite_eq (memory : Nat → Byte) (type : CmdCodeType)
    (code : BitVec 32) (message : List Byte) (total : Int)
    (printedAll : total = (responseHead type code).length + printed message) :
    cmdWrite memory type code message =
      { strBuf := (snprintf (messagePrint memory type code message) total
          (toSize (strBufSize - total)) newline).1,
        len := (BitVec.ofInt 32 (total + 1)).toInt } := by
  have head := responseHead_length type code
  have first : snprintf { memory := memory, stores := [] } 0
      (toSize ((strBufSize : Int) - 1)) (responseHead type code) =
        (headPrint memory type code, ((responseHead type code).length : Int)) := by
    rw [snprintf_whole _ _ _ _ (by change _ < 399; omega) (by decide)]
    rfl
  have room : toSize ((strBufSize : Int) - 1 - (responseHead type code).length) =
      strBufSize - 1 - (responseHead type code).length := by
    unfold toSize strBufSize
    omega
  unfold cmdWrite
  simp only [first, snprintf_returned, zero_add]
  have left : (strBufSize : Int) - 1 - (responseHead type code).length -
      printed message + 1 = strBufSize - total := by
    omega
  have length : (strBufSize : Int) - (strBufSize - total - printed newline) =
      total + 1 := by
    rw [printed_eq newline (by decide)]
    change (strBufSize : Int) - (strBufSize - total - 1) = total + 1
    omega
  rw [room, left, length, ← printedAll]
  rfl

/-! ### Long and short messages -/

theorem wholeResponse_length (type : CmdCodeType) (code : BitVec 32)
    (message : List Byte) :
    (wholeResponse type code message).length =
      (responseHead type code).length + message.length + 1 := by
  unfold wholeResponse
  rw [List.length_append, List.length_append]
  rfl

theorem messagePrint_whole (memory : Nat → Byte) (type : CmdCodeType)
    (code : BitVec 32) (message : List Byte)
    (short : (responseHead type code).length + message.length ≤ 398) :
    messagePrint memory type code message =
      { memory := store
          (store memory 0 (responseHead type code ++ [0]))
          (responseHead type code).length (message ++ [0]),
        stores := [(0, (responseHead type code).length + 1),
          ((responseHead type code).length, message.length + 1)] } := by
  unfold messagePrint
  rw [snprintf_whole _ _ _ _ (by change _ < 399 - _; omega)
    (by change 399 - _ < 2 ^ 31; omega)]
  rfl

theorem messagePrint_load (memory : Nat → Byte) (type : CmdCodeType)
    (code : BitVec 32) (message : List Byte)
    (short : (responseHead type code).length + message.length ≤ 398) :
    load (messagePrint memory type code message).memory 0
        ((responseHead type code).length + message.length) =
      responseHead type code ++ message := by
  rw [messagePrint_whole memory type code message short]
  have behind := load_store_append_take
    (store memory 0 (responseHead type code ++ [0])) 0
    (responseHead type code).length message.length (message ++ [0])
    (by rw [List.length_append]; omega)
  rw [Nat.zero_add] at behind
  dsimp only
  rw [behind, load_store_take _ _ _ _ (by rw [List.length_append]; omega),
    List.take_left, List.take_left]

theorem cmdWrite_short (memory : Nat → Byte) (type : CmdCodeType)
    (code : BitVec 32) (message : List Byte)
    (short : (responseHead type code).length + message.length ≤ 398) :
    Bounded type code message (cmdWrite memory type code message) := by
  have head := responseHead_length type code
  have total : (((responseHead type code).length + message.length : Nat) : Int) =
      (responseHead type code).length + printed message := by
    rw [printed_eq message (by omega)]
    push_cast
    rfl
  have room : toSize ((strBufSize : Int) -
      ((responseHead type code).length + message.length : Nat)) =
      strBufSize - ((responseHead type code).length + message.length) := by
    unfold toSize strBufSize
    omega
  have last := snprintf_whole (messagePrint memory type code message)
    (((responseHead type code).length + message.length : Nat) : Int)
    (strBufSize - ((responseHead type code).length + message.length)) newline
    (by change 1 < 400 - _; omega) (by change 400 - _ < 2 ^ 31; omega)
  have length : (BitVec.ofInt 32
      (((responseHead type code).length + message.length : Nat) + 1)).toInt =
      (((responseHead type code).length + message.length + 1 : Nat) : Int) := by
    rw [toInt_ofInt_32]
    omega
  rw [cmdWrite_eq memory type code message _ total, room, last, length]
  refine ⟨?_, ?_, message, List.prefix_rfl, fun _ => rfl, ?_⟩
  · rw [messagePrint_whole memory type code message short]
    intro place member
    change place ∈ [(0, (responseHead type code).length + 1),
      ((responseHead type code).length, message.length + 1),
      ((responseHead type code).length + message.length, 2)] at member
    unfold strBufSize
    simp only [List.mem_cons, List.not_mem_nil, or_false] at member
    rcases member with rfl | rfl | rfl
    all_goals dsimp only
    all_goals omega
  · change (((responseHead type code).length + message.length + 1 : Nat) : Int) ≤
      ((400 : Nat) : Int)
    omega
  · have behind := load_store_append_take
      (messagePrint memory type code message).memory 0
      ((responseHead type code).length + message.length) 1 (newline ++ [0])
      (by decide)
    rw [Nat.zero_add, messagePrint_load memory type code message short] at behind
    exact behind

theorem Bounded.sent_length {type : CmdCodeType} {code : BitVec 32}
    {message : List Byte} {response : Response}
    (bounded : Bounded type code message response) :
    (responseHead type code).length + 1 ≤ response.len.toNat := by
  obtain ⟨kept, _, _, sent⟩ := bounded.sent
  have lengths := congrArg List.length sent
  rw [Response.sent, length_load, wholeResponse_length] at lengths
  omega

theorem cmdWrite_oneOver (memory : Nat → Byte) (type : CmdCodeType)
    (code : BitVec 32) (message : List Byte)
    (one : (responseHead type code).length + message.length = 399) :
    ¬ Bounded type code message (cmdWrite memory type code message) := by
  intro bounded
  have total : (399 : Int) = (responseHead type code).length + printed message := by
    rw [printed_eq message (by omega)]
    omega
  have response := cmdWrite_eq memory type code message 399 total
  obtain ⟨kept, _, _, sent⟩ := bounded.sent
  have nul : (cmdWrite memory type code message).sent =
      load (cmdWrite memory type code message).strBuf.memory 0 399 ++ [0] := by
    rw [response]
    change load (store (messagePrint memory type code message).memory 399 [0]) 0
      (399 + 1) = load (store _ 399 [0]) 0 399 ++ [0]
    rw [load_append, Nat.zero_add]
    rfl
  have ends := List.append_inj_right' (nul.symm.trans sent) rfl
  revert ends
  decide

theorem cmdWrite_long (memory : Nat → Byte) (type : CmdCodeType)
    (code : BitVec 32) (message : List Byte)
    (long : 399 < (responseHead type code).length + message.length) :
    ¬ Bounded type code message (cmdWrite memory type code message) := by
  intro bounded
  have head := responseHead_length type code
  have sent := bounded.sent_length
  have inside := bounded.length
  have response := cmdWrite_eq memory type code message _ rfl
  rw [response] at sent inside
  change (BitVec.ofInt 32 _).toInt ≤ ((400 : Nat) : Int) at inside
  dsimp only at sent
  rw [toInt_ofInt_32] at sent inside
  unfold printed at sent inside
  by_cases representable : message.length < 2 ^ 31
  · -- The length is either too large or negative.
    rw [if_pos representable] at sent inside
    omega
  · -- The newline replaces the blank of the head.
    rw [if_neg representable] at sent
    omega

/-- A response is bounded exactly if its text leaves room for the newline and
a NUL. -/
theorem cmdWrite_bounded_iff (memory : Nat → Byte) (type : CmdCodeType)
    (code : BitVec 32) (message : List Byte) :
    Bounded type code message (cmdWrite memory type code message) ↔
      (responseHead type code).length + message.length + 2 ≤ strBufSize := by
  change _ ↔ _ ≤ 400
  constructor
  · intro bounded
    by_contra tooLong
    by_cases one : (responseHead type code).length + message.length = 399
    · exact cmdWrite_oneOver memory type code message one bounded
    · exact cmdWrite_long memory type code message (by omega) bounded
  · intro short
    exact cmdWrite_short memory type code message (by omega)

/-- A message of 500 bytes does not. -/
theorem longMessage_unbounded :
    ¬ Bounded .status 200#32 (List.replicate 500 0x41)
      (cmdWrite (fun _ => 0) .status 200#32 (List.replicate 500 0x41)) :=
  cmdWrite_long _ _ _ _ (by rw [List.length_replicate]; decide)

theorem cmdWriteRespond_bounded (memory : Nat → Byte) (status : BitVec 32)
    (desc : String) (described : cmdGetStatusDesc status = some desc) :
    Bounded .status status (charBytes desc)
      (cmdWrite memory .status status (charBytes desc)) := by
  have head := responseHead_length .status status
  obtain ⟨text, same, short⟩ := cmdGetStatusDesc_short status
  rw [described] at same
  cases same
  exact cmdWrite_short memory .status status (charBytes desc) (by omega)

end XR872.Console
