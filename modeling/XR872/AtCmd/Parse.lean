/-
The loop of `at_parse`.

One turn takes one byte from the queue and may look at the next. The cache is a
static buffer of 1024 bytes: a store behind its end leaves the model, and the
parser then stays where it is. Turns that find no room start the next line with
an empty cache, some of them with the flag of a complete line still set.
-/

import XR872.AtCmd.Command
import XR872.AtCmd.Queue
import XR872.Library.Run

namespace XR872.AtCmd

open BitView
open Buffers
open Lines
open Rings
open Runs

variable {n : Nat}

def CMD_CACHE_MAX_LEN : Nat := 1024

structure AtParser (n : Nat) where
  queue : AtQueue n
  /-- `cache.buf` as far as `cache.cnt`. -/
  cache : List Byte
  flag : Bool
  /-- What `at_parse_cmd` was called with, oldest call first. -/
  calls : List (List Byte)
  /-- A byte was stored behind `cache.buf`, or the queue left its ring. -/
  outside : Bool
deriving DecidableEq, Repr

/-- The parser after `at_init`, with `at_parse` entered. -/
def atParseStart (queue : AtQueue n) : AtParser n :=
  { queue, cache := [], flag := false, calls := [], outside := false }

def AtParser.leave (parser : AtParser n) : AtParser n :=
  { parser with outside := true }

def AtParser.discard (parser : AtParser n) : AtParser n :=
  { parser with cache := [] }

/-- The end of a turn. The echo ends the cache with a NUL of its own. -/
def atParseRespond (parser : AtParser n) (localecho1 : Bool) : AtParser n :=
  if parser.flag then
    if localecho1 ∧ CMD_CACHE_MAX_LEN ≤ parser.cache.length then parser.leave
    else
      { parser with
        calls := parser.calls ++ [parser.cache]
        cache := []
        flag := false }
  else parser

/-- The append that a byte of any kind ends with. -/
def atParseAppend (parser : AtParser n) (tmp : Byte) (localecho1 : Bool) :
    AtParser n :=
  if parser.cache.length < CMD_CACHE_MAX_LEN then
    atParseRespond { parser with cache := parser.cache ++ [tmp] } localecho1
  else parser.discard

/-- A line end that is stored if there is room, and then appended once more. -/
def atParseEnd (parser : AtParser n) (tmp : Byte) (localecho1 : Bool) :
    AtParser n :=
  if parser.cache.length < CMD_CACHE_MAX_LEN then
    atParseAppend { parser with cache := parser.cache ++ [tmp], flag := true }
      tmp localecho1
  else parser.discard

/-- CR: stored without a look at the room, then the next byte is peeked. -/
def atParseCr (parser : AtParser n) (tmp : Byte) (localecho1 : Bool) :
    AtParser n :=
  if CMD_CACHE_MAX_LEN ≤ parser.cache.length then parser.leave
  else
    let stored := { parser with cache := parser.cache ++ [tmp] }
    match atQueuePeek stored.queue with
    | none => stored.leave
    | some (.empty, queue) =>
        atParseAppend { stored with queue, flag := true } tmp localecho1
    | some (.ok following, queue) =>
        if following = AT_LF then
          match atQueuePeek queue with
          | none => stored.leave
          | some (.empty, queue) =>
              atParseEnd { stored with queue } following localecho1
          | some (.ok again, queue) =>
              atParseEnd { stored with queue } again localecho1
        else
          atParseAppend { stored with queue, flag := true } following localecho1

def atParseByte (parser : AtParser n) (tmp : Byte) (localecho1 : Bool) :
    AtParser n :=
  if tmp = AT_LF then atParseEnd parser tmp localecho1
  else if tmp = AT_CR then atParseCr parser tmp localecho1
  else atParseAppend parser tmp localecho1

/-- One turn of the loop, with the echo switched on or off. -/
def atParseTurn (parser : AtParser n) (localecho1 : Bool) : AtParser n :=
  if parser.outside then parser
  else
    match atQueueGet parser.queue with
    | none => parser.leave
    | some (.empty, queue) => atParseRespond { parser with queue } localecho1
    | some (.ok tmp, queue) => atParseByte { parser with queue } tmp localecho1

/-- The lines handed to `at_parse_cmd` that are not blank. -/
def AtParser.handed (parser : AtParser n) : List (List Byte) :=
  (parser.calls.map lineOf).filter fun line => decide (line ≠ [])

/-- The commands whose handler ran. -/
def AtParser.executed (parser : AtParser n) : List Nat :=
  parser.calls.filterMap fun cmdline => (atParseCmd cmdline).command

/-! ### Turns that meet the framing -/

def PeeksLf (queue : AtQueue n) : Prop :=
  (atQueuePeek queue).map Prod.fst = some (.ok AT_LF)

instance (queue : AtQueue n) : Decidable (PeeksLf queue) :=
  inferInstanceAs (Decidable (_ = _))

def NothingLeft (stream : List Byte) : Prop :=
  select CMD_CACHE_MAX_LEN ((linesFrom AT_CR AT_LF [] stream).take 1) = []

instance (stream : List Byte) : Decidable (NothingLeft stream) :=
  inferInstanceAs (Decidable (_ = _))

/-- There is room for the byte and for what the code stores with it, or the
line is discarded at its very end. -/
def CleanByte (parser : AtParser n) (tmp : Byte) (localecho1 : Bool) : Prop :=
  let cnt := parser.cache.length
  if tmp = AT_LF then
    cnt + 2 + localecho1.toNat ≤ CMD_CACHE_MAX_LEN ∨ cnt = CMD_CACHE_MAX_LEN
  else if tmp = AT_CR then
    if PeeksLf parser.queue then
      cnt + 3 + localecho1.toNat ≤ CMD_CACHE_MAX_LEN ∨
        cnt + 1 = CMD_CACHE_MAX_LEN
    else cnt + 2 + localecho1.toNat ≤ CMD_CACHE_MAX_LEN
  else cnt < CMD_CACHE_MAX_LEN ∨ NothingLeft parser.queue.unread

instance (parser : AtParser n) (tmp : Byte) (localecho1 : Bool) :
    Decidable (CleanByte parser tmp localecho1) :=
  inferInstanceAs (Decidable (ite _ _ _))

def CleanAnswer (parser : AtParser n) (localecho1 : Bool) :
    Option (QueueAnswer × AtQueue n) → Prop
  | some (.ok tmp, queue) => CleanByte { parser with queue } tmp localecho1
  | _ => True

/-- The condition on one turn, before it is taken. -/
def CleanTurn (parser : AtParser n) (localecho1 : Bool) : Prop :=
  CleanAnswer parser localecho1 (atQueueGet parser.queue)

instance (parser : AtParser n) (localecho1 : Bool) :
    ∀ answer, Decidable (CleanAnswer parser localecho1 answer)
  | none => isTrue trivial
  | some (.empty, _) => isTrue trivial
  | some (.ok tmp, queue) =>
      inferInstanceAs (Decidable (CleanByte { parser with queue } tmp localecho1))

instance (parser : AtParser n) (localecho1 : Bool) :
    Decidable (CleanTurn parser localecho1) :=
  inferInstanceAs (Decidable (CleanAnswer _ _ _))

/-! ### What is handed -/

theorem handed_call (parser : AtParser n) (cmdline : List Byte)
    (queue : AtQueue n) (cache : List Byte) (flag : Bool) :
    AtParser.handed
        { parser with queue, cache, flag, calls := parser.calls ++ [cmdline] } =
      parser.handed ++ kept (lineOf cmdline) := by
  unfold AtParser.handed kept
  rw [List.map_append, List.filter_append]
  by_cases blank : lineOf cmdline = []
  · simp [blank]
  · simp [blank]

/-- What was executed are the commands of the lines that were handed. -/
theorem executed_eq (parser : AtParser n) :
    parser.executed =
      parser.handed.filterMap fun line => (atParseCmd line).command := by
  unfold AtParser.executed AtParser.handed
  induction parser.calls with
  | nil => rfl
  | cons cmdline rest ih =>
      rw [List.filterMap_cons, command_line, List.map_cons, List.filter_cons, ih]
      by_cases blank : lineOf cmdline = []
      · rw [blank, if_neg (by simp)]
        rfl
      · rw [if_pos (by simp [blank]), List.filterMap_cons]

end XR872.AtCmd
