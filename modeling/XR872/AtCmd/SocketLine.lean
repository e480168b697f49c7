/-
The line end of AT+S.SOCKW, and the bytes `at_sockw` begins with.

The turn that hands the line to `at_parse_cmd` has taken one character of the
line end from the queue, a CR or an LF, and no more.
-/

import XR872.AtCmd.SocketWrite

namespace XR872.AtCmd

open BitView
open Buffers
open Rings
open Runs

variable {n : Nat}

/-! ### Turns that hand a line -/

section Hands

variable (parser : AtParser n) (tmp : Byte) (localecho1 : Bool)

theorem atParseRespond_queue :
    (atParseRespond parser localecho1).queue = parser.queue := by
  unfold atParseRespond
  split
  · split
    · rfl
    · rfl
  · rfl

theorem atParseAppend_queue :
    (atParseAppend parser tmp localecho1).queue = parser.queue := by
  unfold atParseAppend
  split
  · exact atParseRespond_queue _ _
  · rfl

theorem atParseEnd_queue :
    (atParseEnd parser tmp localecho1).queue = parser.queue := by
  unfold atParseEnd
  split
  · exact atParseAppend_queue _ _ _
  · rfl

theorem atParseRespond_calls :
    (atParseRespond parser localecho1).calls = parser.calls ∨
      parser.flag = true ∧
        (atParseRespond parser localecho1).calls =
          parser.calls ++ [parser.cache] := by
  unfold atParseRespond
  cases parser.flag with
  | false => exact Or.inl rfl
  | true =>
      rw [if_pos rfl]
      split
      · exact Or.inl rfl
      · exact Or.inr ⟨rfl, rfl⟩

theorem atParseAppend_calls :
    (atParseAppend parser tmp localecho1).calls = parser.calls ∨
      parser.flag = true ∧
        (atParseAppend parser tmp localecho1).calls =
          parser.calls ++ [parser.cache ++ [tmp]] := by
  unfold atParseAppend
  split
  · exact atParseRespond_calls _ _
  · exact Or.inl rfl

/-- Between two turns the flag of a complete line is set with an empty cache
only. -/
def Cleared (parser : AtParser n) : Prop :=
  parser.outside = false → parser.flag = true → parser.cache = []

end Hands

/-! ### The line -/

theorem sockwCommand_single (char : Byte) : sockwCommand [char] = none := by
  have name : atCmdName [] [char] = some ([], [char]) ∨
      atCmdName [] [char] = some ([char], []) := by
    unfold atCmdName
    split
    · exact Or.inl rfl
    · split
      · exact Or.inl rfl
      · split
        · exact Or.inl rfl
        · exact Or.inr rfl
  unfold sockwCommand atParseCmd
  rcases name with blank | whole
  · rw [blank]
    rfl
  · rw [whole]
    dsimp only
    have named : ¬ [char].length = 0 := Nat.succ_ne_zero 0
    rw [if_neg named]
    cases atMatch [char] with
    | none => rfl
    | some idx => exact ite_self _

/-- `atoi` stays below the sign of an `int`. -/
theorem getDiPara_positive (ppara : List Byte) (opt : Nat) (di : BitVec 32)
    (stored : (getDiPara ppara opt).stored = some di) : di.toNat < 2 ^ 31 := by
  unfold getDiPara getIntPara at stored
  dsimp only at stored
  split at stored
  · have value := Option.some.inj stored
    have bound : atAtoi (scanPara isDec 11 [] ppara).strbuf ≤ 2 ^ 31 - 1 :=
      Nat.min_le_right _ _
    rw [← value, BitVec.toNat_ofNat]
    exact Nat.lt_of_le_of_lt (Nat.mod_le _ _) (by omega)
  · cases stored

theorem getPara_positive (pt : AtParaType) (opt : Nat) (ppara : List Byte)
    (di : BitVec 32) (stored : (getPara pt opt ppara).stored = some (.di di)) :
    di.toNat < 2 ^ 31 := by
  cases pt with
  | di =>
      obtain ⟨value, found, same⟩ := Option.map_eq_some_iff.mp stored
      cases same
      exact getDiPara_positive ppara opt di found
  | text | hex | hi | ip =>
      obtain ⟨_, _, same⟩ := Option.map_eq_some_iff.mp stored
      cases same

theorem atGetParameters_positive (descriptors : List AtParaDescriptor)
    (ppara : List Byte) (di : BitVec 32)
    (member : AtValue.di di ∈ (atGetParameters descriptors ppara).2.1) :
    di.toNat < 2 ^ 31 := by
  induction descriptors generalizing ppara with
  | nil => cases member
  | cons descriptor rest ih =>
      unfold atGetParameters at member
      dsimp only at member
      split at member
      · cases member
      · next value found =>
        split at member
        · rw [List.mem_singleton.mp member |>.symm] at found
          exact getPara_positive _ _ _ di found
        · rcases List.mem_cons.mp member with first | later
          · rw [← first] at found
            exact getPara_positive _ _ _ di found
          · exact ih _ later

theorem sockwHandler_positive (ptr id : List Byte) (len : BitVec 32)
    (called : sockwHandler ptr = some (id, len)) : len.toNat < 2 ^ 31 := by
  unfold sockwHandler at called
  split at called
  · cases called
  · next char rest =>
    split at called
    · split at called
      · next _ stored _ found =>
        cases called
        apply atGetParameters_positive sockwParaList rest
        rw [found]
        exact List.mem_cons_of_mem _ List.mem_cons_self
      · cases called
    · cases called

theorem sockwCommand_positive (cmdline id : List Byte) (len : BitVec 32)
    (accepted : sockwCommand cmdline = some (id, len)) :
    len.toInt = len.toNat := by
  have small : len.toNat < 2 ^ 31 := by
    unfold sockwCommand at accepted
    split at accepted
    · split at accepted
      · exact sockwHandler_positive _ id len accepted
      · cases accepted
    · cases accepted
  rw [BitVec.toInt_eq_toNat_of_lt (by omega)]

theorem atParseCr_reads (parser : AtParser n) (tmp : Byte) (localecho1 : Bool)
    (reader : Reader) (reads : Reads parser.queue reader) :
    ∃ later, later.unread = reader.unread ∧
      Reads (atParseCr parser tmp localecho1).queue later := by
  unfold atParseCr
  split
  · exact ⟨reader, rfl, reads⟩
  · obtain ⟨peeked, peek, kept⟩ := atQueuePeek_reads _ _ reads
    rcases reader.peek_cases with ⟨nothing, _⟩ | ⟨following, rest, found, seen⟩
    · rw [nothing] at peek kept
      simp only [peek, atParseAppend_queue]
      exact ⟨reader.fill, reader.unread_fill, kept⟩
    · rw [seen] at peek kept
      simp only [peek]
      split
      · obtain ⟨again, second, still⟩ := atQueuePeek_reads _ _ kept
        have same : reader.fill.peek = (.ok following, reader.fill) := by
          unfold Reader.peek
          rw [Reader.fill_ready _ _ _ found, found]
        rw [same] at second still
        simp only [second, atParseEnd_queue]
        exact ⟨reader.fill, reader.unread_fill, still⟩
      · rw [atParseAppend_queue]
        exact ⟨reader.fill, reader.unread_fill, kept⟩

/-- The turn that hands the line of a command has taken one character of its
line end. -/
theorem atParseTurn_line (parser : AtParser n) (localecho1 : Bool)
    (reader : Reader) (reads : Reads parser.queue reader)
    (cleared : Cleared parser) (cmdline id : List Byte) (len : BitVec 32)
    (handed : (atParseTurn parser localecho1).calls = parser.calls ++ [cmdline])
    (accepted : sockwCommand cmdline = some (id, len)) :
    ∃ tmp later, (tmp = AT_CR ∨ tmp = AT_LF) ∧
      reader.unread = tmp :: later.unread ∧
      Reads (atParseTurn parser localecho1).queue later := by
  have longer : parser.calls ≠ parser.calls ++ [cmdline] := by
    intro same
    have lengths := congrArg List.length same
    rw [List.length_append, List.length_singleton] at lengths
    omega
  unfold atParseTurn at handed ⊢
  by_cases out : parser.outside = true
  · rw [if_pos out] at handed
    exact absurd handed longer
  · have inside : parser.outside = false := Bool.eq_false_iff.mpr out
    rw [if_neg out] at handed ⊢
    obtain ⟨queue, get, after⟩ := atQueueGet_reads _ _ reads
    rcases reader.get_cases with ⟨nothing, _⟩ | ⟨tmp, bytes, found, taken⟩
    · rw [nothing] at get
      simp only [get] at handed
      rcases atParseRespond_calls { parser with queue } localecho1 with
        same | ⟨flag, line⟩
      · exact absurd (same.symm.trans handed) longer
      · have only : cmdline = parser.cache :=
          (List.singleton_inj.mp
            (List.append_cancel_left (line.symm.trans handed))).symm
        rw [only, cleared inside flag] at accepted
        cases accepted
    · rw [taken] at get after
      have next := reader.unread_get tmp bytes found
      simp only [get] at handed ⊢
      unfold atParseByte at handed ⊢
      by_cases feed : tmp = AT_LF
      · rw [if_pos feed, atParseEnd_queue]
        exact ⟨tmp, _, Or.inr feed, next, after⟩
      · rw [if_neg feed] at handed ⊢
        by_cases carriage : tmp = AT_CR
        · rw [if_pos carriage]
          obtain ⟨later, same, kept⟩ :=
            atParseCr_reads { parser with queue } tmp localecho1 _ after
          refine ⟨tmp, later, Or.inl carriage, ?_, kept⟩
          rw [same]
          exact next
        · rw [if_neg carriage] at handed
          rcases atParseAppend_calls { parser with queue } tmp localecho1 with
            same | ⟨flag, line⟩
          · exact absurd (same.symm.trans handed) longer
          · have only : cmdline = parser.cache ++ [tmp] :=
              (List.singleton_inj.mp
                (List.append_cancel_left (line.symm.trans handed))).symm
            rw [only, cleared inside flag, List.nil_append,
              sockwCommand_single] at accepted
            cases accepted

/-! ### The command and its payload -/

/-- For every accepted command the payload stays payload exactly under the
condition. -/
theorem sockwPromise_iff (parser : AtParser n) (localecho1 : Bool)
    (reader : Reader) (reads : Reads parser.queue reader)
    (cleared : Cleared parser) (cmdline id : List Byte) (len : BitVec 32)
    (handed : (atParseTurn parser localecho1).calls = parser.calls ++ [cmdline])
    (accepted : sockwCommand cmdline = some (id, len))
    (answers : Nat → AtErrorCode) :
    (∀ turns, SockwPromise len.toNat (payloadOf reader.unread)
        ((atSockwTurn (some answers) (strtol id))^[turns]
          (atSockwStart (atParseTurn parser localecho1).queue len))) ↔
      SockwClean len.toNat reader.unread answers := by
  obtain ⟨tmp, later, _, next, after⟩ := atParseTurn_line parser localecho1 reader
    reads cleared cmdline id len handed accepted
  apply atSockw_promise_iff reader.unread answers (strtol id) _ later after len
    (sockwCommand_positive cmdline id len accepted)
  rw [next, List.tail_cons]

/-! ### Some commands -/

/-- A parser with a line in its cache, before the line end is read. -/
def sockwParser (line : List Byte) (supply : List Delivery) : AtParser 32 :=
  { queue :=
      { ring := Ring.start (Buffer.fill 32 0), qcnt := 0,
        callback := some supply }
    cache := line
    flag := false
    calls := []
    outside := false }

theorem sockwParser_cleared (line : List Byte) (supply : List Delivery) :
    Cleared (sockwParser line supply) := by
  intro _ set
  cases set

theorem sockwParser_reads (line : List Byte) (supply : List Delivery) :
    Reads (sockwParser line supply).queue { ready := [], coming := supply } := by
  obtain ⟨queue, init, reads⟩ := reads_init (Buffer.fill 32 0) supply
    fun delivery _ => delivery.winbuf
  cases init
  exact reads

/-- Two bytes behind an LF, for a handler that refuses them. -/
def feedSupply : List Delivery :=
  [{ bytes := charBytes "\nab", winbuf := Nat.le_of_ble_eq_true rfl }]

theorem feedSupply_promise :
    sockwCommand (charBytes "AT+S.SOCKW=1,2\n\n") = some (charBytes "1", 2#32) ∧
      ∀ turns, SockwPromise 2 (charBytes "ab")
        ((atSockwTurn (some fun _ => .notFound) 1)^[turns]
          (atSockwStart
            (atParseTurn (sockwParser (charBytes "AT+S.SOCKW=1,2") feedSupply)
              false).queue 2#32)) := by
  have accepted :
      sockwCommand (charBytes "AT+S.SOCKW=1,2\n\n") =
        some (charBytes "1", 2#32) := by
    decide
  refine ⟨accepted, (sockwPromise_iff
    (sockwParser (charBytes "AT+S.SOCKW=1,2") feedSupply)
    false _ (sockwParser_reads _ _) (sockwParser_cleared _ _)
    (charBytes "AT+S.SOCKW=1,2\n\n") (charBytes "1") 2#32 (by decide) accepted
    fun _ => .notFound).mpr ⟨?_, ?_⟩⟩
  · intro crLf
    revert crLf
    decide
  · intro index below
    change 1024 * (index + 1) < 2 at below
    omega

/-- The same behind a CRLF. -/
def crLfSupply : List Delivery :=
  [{ bytes := charBytes "\r\nab", winbuf := Nat.le_of_ble_eq_true rfl }]

/-- A payload of 1056 bytes behind an LF. -/
def longPayload : List Delivery :=
  { bytes := [AT_LF], winbuf := Nat.le_of_ble_eq_true rfl } ::
    List.replicate 33
      { bytes := List.replicate 32 0x41#8
        winbuf := Nat.le_of_eq List.length_replicate }

theorem longPayload_length :
    AT_SOCKET_BUFFER_SIZE * (0 + 1) ≤ (streamOf longPayload).tail.length := by
  have blocks (delivery : Delivery) :
      (streamOf (List.replicate 33 delivery)).length =
        33 * delivery.bytes.length := by
    unfold streamOf
    rw [List.length_flatMap, List.map_replicate, List.sum_replicate, smul_eq_mul]
  change 1024 ≤ (streamOf (List.replicate 33 _)).length
  rw [blocks, List.length_replicate]
  omega

theorem unclean_broken (line cmdline id : List Byte) (supply : List Delivery)
    (len : BitVec 32) (answers : Nat → AtErrorCode)
    (handed : (atParseTurn (sockwParser line supply) false).calls = [cmdline])
    (accepted : sockwCommand cmdline = some (id, len))
    (unclean : ¬ SockwClean len.toNat (streamOf supply) answers) :
    ¬ ∀ turns, SockwPromise len.toNat (payloadOf (streamOf supply))
      ((atSockwTurn (some answers) (strtol id))^[turns]
        (atSockwStart (atParseTurn (sockwParser line supply) false).queue len)) := by
  obtain ⟨tmp, later, _, next, after⟩ := atParseTurn_line _ false _
    (sockwParser_reads line supply) (sockwParser_cleared line supply)
    cmdline id len handed accepted
  change streamOf supply = _ at next
  intro promise
  apply unclean
  apply (atSockw_promise_iff (streamOf supply) answers (strtol id) _ later after
    len (sockwCommand_positive cmdline id len accepted) _).mp promise
  rw [next, List.tail_cons]

/-- The LF of the CRLF is sent and the last byte of the payload is left to the
parser; and a handler that refuses the first of two pieces leaves the second
one to the parser. -/
theorem payload_parsed :
    ¬ (∀ turns, SockwPromise 2 (charBytes "ab")
        ((atSockwTurn (some fun _ => .ok) 1)^[turns]
          (atSockwStart
            (atParseTurn (sockwParser (charBytes "AT+S.SOCKW=1,2") crLfSupply)
              false).queue 2#32))) ∧
      ¬ ∀ turns, SockwPromise 1030 (payloadOf (streamOf longPayload))
        ((atSockwTurn (some fun _ => .notFound) 1)^[turns]
          (atSockwStart
            (atParseTurn (sockwParser (charBytes "AT+S.SOCKW=1,1030") longPayload)
              false).queue 1030#32)) := by
  constructor
  · apply unclean_broken (charBytes "AT+S.SOCKW=1,2")
      (charBytes "AT+S.SOCKW=1,2\r\n\n") (charBytes "1") crLfSupply 2#32
      (fun _ => .ok) (by decide) (by decide)
    intro clean
    have short := clean.1 (by decide) (by decide)
    revert short
    decide
  · apply unclean_broken (charBytes "AT+S.SOCKW=1,1030")
      (charBytes "AT+S.SOCKW=1,1030\n\n") (charBytes "1") longPayload 1030#32
      (fun _ => .notFound) (by decide) (by decide)
    intro clean
    have size := longPayload_length
    have refused := clean.2 0 (by decide) (by omega)
    cases refused

end XR872.AtCmd
