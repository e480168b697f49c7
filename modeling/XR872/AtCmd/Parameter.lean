/-
The parameters of a command line.

Five loops of one shape look for the end of a parameter, each with characters
of its own. The line they read from has a line end; where the text runs out
before one, they stop as they do on a parameter that is too long.
-/

import XR872.AtCmd.Command

namespace XR872.AtCmd

open BitView

def AT_SEPARATOR : Byte := 0x2c#8

def AT_DOT : Byte := 0x2e#8

def AT_PARA_MAX_SIZE : Nat := 64

def SIZE_LIMIT_MASK : Nat := (AT_PARA_MAX_SIZE <<< 1) - 1

def SIZE_LIMIT (opt : Nat) : Nat := opt &&& SIZE_LIMIT_MASK

def AET_PARA : Nat := AT_PARA_MAX_SIZE <<< 2

def AET_LINE : Nat := AT_PARA_MAX_SIZE <<< 3

inductive AtParaType where
  | text
  | hex
  | di
  | hi
  | ip
deriving DecidableEq, Repr

/-- The member of `at_value_t` that a parameter is stored to. -/
inductive AtValue where
  /-- Without the NUL that ends it. -/
  | text (text : List Byte)
  | hex (hex : List Byte)
  | di (di : BitVec 32)
  | hi (hi : BitVec 32)
  | ip (ip : List Byte)
deriving DecidableEq, Repr

/-- What one of the functions stores through `pvar`, if it makes no error, the
flag of a line that is over, and what is left of the line. -/
structure Para (α : Type) where
  stored : Option α
  lineOver : Bool
  para : List Byte
deriving DecidableEq, Repr

/-! ### Characters -/

def isDec (ch : Byte) : Bool := 0x30#8 ≤ ch && ch ≤ 0x39#8

def isHex (ch : Byte) : Bool :=
  (0x30#8 ≤ ch && ch ≤ 0x39#8) || (0x41#8 ≤ ch && ch ≤ 0x46#8) ||
    (0x61#8 ≤ ch && ch ≤ 0x66#8)

def hexToNum (ch : Byte) : Nat :=
  if 0x30#8 ≤ ch ∧ ch ≤ 0x39#8 then ch.toNat - 0x30
  else if 0x41#8 ≤ ch ∧ ch ≤ 0x46#8 then ch.toNat - 0x41 + 10
  else ch.toNat - 0x61 + 10

/-- `atoi` on digits; what is too large for an `int` is cut off there. -/
def atAtoi (str : List Byte) : Nat :=
  min (str.foldl (fun num ch => 10 * num + (ch.toNat - 0x30)) 0) (2 ^ 31 - 1)

/-- `sscanf` with `%x` on hexadecimal digits, cut off at an `unsigned`. -/
def scanHex (str : List Byte) : Nat :=
  min (str.foldl (fun num ch => 16 * num + hexToNum ch) 0) (2 ^ 32 - 1)

/-! ### The loops -/

/-- Where a parameter ends: the `AT_END_TYPE`, and what follows. -/
def paraEnd : List Byte → Option (Nat × List Byte)
  | [] => none
  | char :: rest =>
      if char = AT_SEPARATOR then some (AET_PARA, rest)
      else if char = AT_CR then
        some (AET_LINE, if rest.head? = some AT_LF then rest.tail else rest)
      else if char = AT_LF then some (AET_LINE, rest)
      else none

/-- What a loop leaves; `end_type` is 0 if it saw no end. -/
structure Scan where
  strbuf : List Byte
  endType : Nat
  para : List Byte
deriving DecidableEq, Repr

def Scan.lineOver (scan : Scan) : Bool := decide (scan.endType = AET_LINE)

/-- The loop of a parameter whose characters are kept as they come. -/
def scanPara (accepts : Byte → Bool) (sizeLimit : Nat) (strbuf : List Byte) :
    List Byte → Scan
  | [] => { strbuf, endType := 0, para := [] }
  | char :: rest =>
      if strbuf.length < sizeLimit then
        match paraEnd (char :: rest) with
        | some (endType, para) => { strbuf, endType, para }
        | none =>
            if accepts char then
              scanPara accepts sizeLimit (strbuf ++ [char]) rest
            else { strbuf, endType := 0, para := char :: rest }
      else { strbuf, endType := 0, para := char :: rest }

def hexByte (hexbuf : List Byte) : Byte :=
  BitVec.ofNat 8 (hexbuf.foldl (fun num ch => 16 * num + hexToNum ch) 0)

/-- The loop of `get_hex_para`. The turn that stores a byte takes no character,
so it is run together with the next one. -/
def scanHexPara (sizeLimit : Nat) (strbuf hexbuf : List Byte) :
    List Byte → Scan × List Byte
  | [] => ({ strbuf, endType := 0, para := [] }, hexbuf)
  | char :: rest =>
      if strbuf.length < sizeLimit then
        match paraEnd (char :: rest) with
        | some (endType, para) => ({ strbuf, endType, para }, hexbuf)
        | none =>
            if hexbuf.length < 2 then
              if isHex char then
                scanHexPara sizeLimit strbuf (hexbuf ++ [char]) rest
              else ({ strbuf, endType := 0, para := char :: rest }, hexbuf)
            else if strbuf.length + 1 < sizeLimit ∧ isHex char then
              scanHexPara sizeLimit (strbuf ++ [hexByte hexbuf]) [char] rest
            else
              ({ strbuf := strbuf ++ [hexByte hexbuf], endType := 0,
                 para := char :: rest }, [])
      else ({ strbuf, endType := 0, para := char :: rest }, hexbuf)

def decByte (decbuf : List Byte) : Option Byte :=
  if 1 ≤ decbuf.length ∧ decbuf.length ≤ 3 then
    if atAtoi decbuf ≤ 255 then some (BitVec.ofNat 8 (atAtoi decbuf)) else none
  else none

/-- The loop of `get_ip_para`. -/
def scanIpPara (strbuf decbuf : List Byte) : List Byte → Scan × List Byte
  | [] => ({ strbuf, endType := 0, para := [] }, decbuf)
  | char :: rest =>
      if strbuf.length < 4 then
        match paraEnd (char :: rest) with
        | some (endType, para) => ({ strbuf, endType, para }, decbuf)
        | none =>
            if char = AT_DOT then
              match decByte decbuf with
              | some byte => scanIpPara (strbuf ++ [byte]) [] rest
              | none => ({ strbuf, endType := 0, para := rest }, [])
            else if isDec char then
              if decbuf.length < 3 then
                scanIpPara strbuf (decbuf ++ [char]) rest
              else ({ strbuf, endType := 0, para := char :: rest }, decbuf)
            else ({ strbuf, endType := 0, para := char :: rest }, decbuf)
      else ({ strbuf, endType := 0, para := char :: rest }, decbuf)

/-! ### The functions -/

def getTextPara (ppara : List Byte) (opt : Nat) : Para (List Byte) :=
  let scan := scanPara (fun _ => true) (SIZE_LIMIT opt) [] ppara
  let cnt := scan.strbuf.length
  { stored :=
      if scan.endType &&& opt ≠ 0 ∧ 0 < cnt ∧ cnt < SIZE_LIMIT opt then
        some scan.strbuf
      else none
    lineOver := scan.lineOver
    para := scan.para }

def getHexPara (ppara : List Byte) (opt : Nat) : Para (List Byte) :=
  let (scan, hexbuf) := scanHexPara (SIZE_LIMIT opt) [] [] ppara
  if scan.endType &&& opt ≠ 0 ∧ hexbuf.length = 2 then
    let strbuf := scan.strbuf ++ [hexByte hexbuf]
    { stored := some (strbuf ++
        List.replicate (SIZE_LIMIT opt - strbuf.length) 0)
      lineOver := scan.lineOver
      para := scan.para.tail }
  else { stored := none, lineOver := scan.lineOver, para := scan.para }

def getIntPara (accepts : Byte → Bool) (number : List Byte → Nat)
    (ppara : List Byte) (opt : Nat) : Para (BitVec 32) :=
  let scan := scanPara accepts 11 [] ppara
  let cnt := scan.strbuf.length
  { stored :=
      if scan.endType &&& opt ≠ 0 ∧ 0 < cnt ∧ cnt < 11 then
        some (BitVec.ofNat 32 (number scan.strbuf))
      else none
    lineOver := scan.lineOver
    para := scan.para }

def getDiPara : List Byte → Nat → Para (BitVec 32) := getIntPara isDec atAtoi

def getHiPara : List Byte → Nat → Para (BitVec 32) := getIntPara isHex scanHex

def getIpPara (ppara : List Byte) (opt : Nat) : Para (List Byte) :=
  let (scan, decbuf) := scanIpPara [] [] ppara
  { stored :=
      if scan.endType &&& opt ≠ 0 then
        match decByte decbuf with
        | some byte =>
            if (scan.strbuf ++ [byte]).length = 4 then
              some (scan.strbuf ++ [byte])
            else none
        | none => none
      else none
    lineOver := scan.lineOver
    para := scan.para }

def Para.map {α β : Type} (member : α → β) (para : Para α) : Para β :=
  { stored := para.stored.map member, lineOver := para.lineOver, para := para.para }

/-- The `switch` of `at_get_parameters`. -/
def getPara (pt : AtParaType) (opt : Nat) (ppara : List Byte) : Para AtValue :=
  match pt with
  | .text => (getTextPara ppara opt).map .text
  | .hex => (getHexPara ppara opt).map .hex
  | .di => (getDiPara ppara opt).map .di
  | .hi => (getHiPara ppara opt).map .hi
  | .ip => (getIpPara ppara opt).map .ip

/-- `at_para_descriptor_t` without the place that is stored to. -/
structure AtParaDescriptor where
  pt : AtParaType
  option : Nat
deriving DecidableEq, Repr

/-- `AT_ERROR_CODE`, as far as it is answered here. -/
inductive AtErrorCode where
  | ok
  | paraError
  | noPara
  | notFound
  | outOfRange
  | readOnly
deriving DecidableEq, Repr

/-- `at_get_parameters` on a list that is not empty: the answer, what was
stored for each parameter that was counted, and what is left of the line. -/
def atGetParameters :
    List AtParaDescriptor → List Byte → AtErrorCode × List AtValue × List Byte
  | [], ppara => (.ok, [], ppara)
  | descriptor :: rest, ppara =>
      let res := getPara descriptor.pt descriptor.option ppara
      match res.stored with
      | none => (.paraError, [], res.para)
      | some value =>
          if res.lineOver then (.ok, [value], res.para)
          else
            let (answer, values, para) := atGetParameters rest res.para
            (answer, value :: values, para)

/-! ### The texts of values -/

def hexDigit (num : Nat) : Byte :=
  (charBytes "0123456789ABCDEF").getD num 0

/-- `%X` with leading zeros. -/
def hexText (digits num : Nat) : List Byte :=
  (List.range digits).reverse.map fun index => hexDigit (num / 16 ^ index % 16)

/-- The elements of an array with a character between them. -/
def separated (separator : Byte) (text : Byte → List Byte) : List Byte →
    List Byte
  | [] => []
  | first :: rest =>
      text first ++ rest.flatMap fun byte => separator :: text byte

/-- `at_get_value` on the bytes of a variable. A text without a NUL is read on
behind its variable, and that is left out. -/
def atGetValue (pt : AtParaType) (pvar : List Byte) : Option (List Byte) :=
  match pt with
  | .di => some (charBytes (toString (ofBytes 32 pvar).toInt))
  | .hi => some (charBytes "0x" ++ hexText 8 (ofBytes 32 pvar).toNat)
  | .hex => some (separated 0x3a#8 (fun byte => hexText 2 byte.toNat) pvar)
  | .ip => some (separated AT_DOT (fun byte => charBytes (toString byte.toNat)) pvar)
  | .text => if 0 ∈ pvar then some (cString pvar) else none

example : atGetValue .ip [192, 168, 0, 50] = some (charBytes "192.168.0.50") := by
  decide

end XR872.AtCmd
