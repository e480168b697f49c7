/-
One command line: its name, and the handler the name stands for.

The name is what comes before '=' or the line end, so nothing behind the line
end has a part in which handler runs.
-/

import XR872.Library.BitView
import XR872.Library.Lines

namespace XR872.AtCmd

open BitView
open Lines

def AT_CR : Byte := 0x0d#8

def AT_LF : Byte := 0x0a#8

def AT_EQU : Byte := 0x3d#8

def AT_CMD_MAX_SIZE : Nat := 32

theorem atCr_ne_atLf : AT_CR ≠ AT_LF := by decide

def charBytes (text : String) : List Byte :=
  text.toList.map fun char => BitVec.ofNat 8 char.toNat

/-- The `cmd` column of `at_command_table`. -/
def atCommandTable : List (List Byte) :=
  [ "AT", "AT+ACT", "AT+RST", "AT+S.HELP", "AT+S.GCFG", "AT+S.SCFG",
    "AT+S.SSIDTXT", "AT&V", "AT&F", "AT&W", "AT+S.STS", "AT+S.PING",
    "AT+S.SOCKON", "AT+S.SOCKW", "AT+S.SOCKQ", "AT+S.SOCKR", "AT+S.SOCKC",
    "AT+S.SOCKD", "AT+S.", "AT+S.WIFI", "AT+S.ROAM", "AT+S.SCAN" ].map charBytes

/-- What `strcmp` reads of a text: the bytes before the first NUL. -/
def cString (text : List Byte) : List Byte :=
  text.takeWhile fun char => decide (char ≠ 0)

def atMatch (cmd : List Byte) : Option Nat :=
  atCommandTable.findIdx? fun name => decide (cString cmd = name)

inductive CmdAnswer where
  | blankLine
  | cmdError
  /-- The handler of an entry of the table, called with the text from `ptr`. -/
  | handler (idx : Nat) (ptr : List Byte)
deriving DecidableEq, Repr

/-- The loop over the line: the name, and what is left at `cptr`. A name that
is too long is an error. -/
def atCmdName : List Byte → List Byte → Option (List Byte × List Byte)
  | at_cmd, [] => some (at_cmd, [])
  | at_cmd, char :: rest =>
      if char = AT_EQU then some (at_cmd, char :: rest)
      else if char = AT_LF then some (at_cmd, char :: rest)
      else if char = AT_CR then some (at_cmd, char :: rest)
      else if at_cmd.length < AT_CMD_MAX_SIZE then
        atCmdName (at_cmd ++ [char]) rest
      else none

def atParseCmd (cmdline : List Byte) : CmdAnswer :=
  match atCmdName [] cmdline with
  | none => .cmdError
  | some (at_cmd, cptr) =>
      if at_cmd.length = 0 then .blankLine
      else
        match atMatch at_cmd with
        | some idx => .handler idx cptr
        | none => .cmdError

/-- The entry of the table whose handler runs. -/
def CmdAnswer.command : CmdAnswer → Option Nat
  | .handler idx _ => some idx
  | _ => none

/-! ### The line in what is handed -/

/-- The bytes of a command line before its end. -/
def lineOf (cmdline : List Byte) : List Byte :=
  cmdline.takeWhile fun char => decide (Plain AT_CR AT_LF char)

theorem lineOf_plain (line : List Byte)
    (plain : ∀ char ∈ line, Plain AT_CR AT_LF char) (ending : List Byte)
    (ends : ending.head? = some AT_CR ∨ ending.head? = some AT_LF) :
    lineOf (line ++ ending) = line := by
  have all : ∀ char ∈ line, decide (Plain AT_CR AT_LF char) = true :=
    fun char member => decide_eq_true (plain char member)
  unfold lineOf
  rw [List.takeWhile_append_of_pos all]
  rcases ends with carriage | feed
  · obtain ⟨tail, split⟩ := List.head?_eq_some_iff.mp carriage
    rw [split, List.takeWhile_cons_of_neg (by decide), List.append_nil]
  · obtain ⟨tail, split⟩ := List.head?_eq_some_iff.mp feed
    rw [split, List.takeWhile_cons_of_neg (by decide), List.append_nil]

theorem atCmdName_line (at_cmd cmdline : List Byte) :
    (atCmdName at_cmd cmdline).map Prod.fst =
      (atCmdName at_cmd (lineOf cmdline)).map Prod.fst := by
  induction cmdline generalizing at_cmd with
  | nil => rfl
  | cons char rest ih =>
      by_cases plain : Plain AT_CR AT_LF char
      · have line : lineOf (char :: rest) = char :: lineOf rest :=
          List.takeWhile_cons_of_pos (decide_eq_true plain)
        rw [line]
        unfold atCmdName
        rw [if_neg plain.2, if_neg plain.1, if_neg plain.2, if_neg plain.1]
        by_cases equals : char = AT_EQU
        · rw [if_pos equals, if_pos equals]
          rfl
        · rw [if_neg equals, if_neg equals]
          by_cases short : at_cmd.length < AT_CMD_MAX_SIZE
          · rw [if_pos short, if_pos short]
            exact ih (at_cmd ++ [char])
          · rw [if_neg short, if_neg short]
      · have line : lineOf (char :: rest) = [] :=
          List.takeWhile_cons_of_neg (by rw [decide_eq_true_iff]; exact plain)
        rw [line]
        unfold atCmdName
        by_cases feed : char = AT_LF
        · rw [if_pos feed, ite_self]
          rfl
        · have carriage : char = AT_CR := by
            by_contra other
            exact plain ⟨other, feed⟩
          rw [if_neg feed, if_pos carriage, ite_self]
          rfl

theorem command_line (cmdline : List Byte) :
    (atParseCmd cmdline).command = (atParseCmd (lineOf cmdline)).command := by
  have named := atCmdName_line [] cmdline
  unfold atParseCmd
  cases whole : atCmdName [] cmdline with
  | none =>
      rw [whole, Option.map_none, eq_comm, Option.map_eq_none_iff] at named
      rw [named]
  | some found =>
      obtain ⟨at_cmd, cptr⟩ := found
      rw [whole, Option.map_some, eq_comm, Option.map_eq_some_iff] at named
      obtain ⟨⟨name, rest⟩, line, same⟩ := named
      change name = at_cmd at same
      subst same
      rw [line]
      by_cases blank : name.length = 0
      · simp only [if_pos blank]
      · simp only [if_neg blank]
        cases atMatch name with
        | none => rfl
        | some idx => rfl

end XR872.AtCmd
