/-
The commands of the WLAN interface and what they pass to the driver.

A line is a keyword and its arguments. A configuration is set from a field and a
value that is parsed as the field wants it; what does not parse is not passed
on.
-/

import XR872.Library.Literals
import XR872.Library.Words

namespace XR872.Wlan

open Literals
open Words

/-- A string without its terminating zero. -/
abbrev Text := List Char

def INT32_MAX : Int := 2 ^ 31 - 1

def INT32_MIN : Int := -2 ^ 31

def WLAN_SSID_MAX_LEN : Nat := 32

/-- `sizeof(config.u.psk)`. -/
def pskSize : Nat := 65

/-- `sizeof(config.u.wep_key)`. -/
def wepKeySize : Nat := 33

/-- `sizeof(param.passphrase)`. -/
def passphraseSize : Nat := 64

def isBlank (char : Char) : Bool := decide (char = ' ' ∨ char = '\t')

/-- At most `size` words. -/
def cmdParseArgv : Nat → Text → List Text
  | 0, _ => []
  | size + 1, cmd =>
      match cmd.dropWhile isBlank with
      | [] => []
      | char :: later =>
          (char :: later).takeWhile (solid isBlank) ::
            match (char :: later).dropWhile (solid isBlank) with
            | [] => []
            | _ :: rest => cmdParseArgv size rest

/-! ### Values -/

def cmdWpasParseInt (value : Text) (min max : Int) : Option Int :=
  let (val, rest) := strtol INT32_MIN INT32_MAX value
  if rest ≠ [] then none
  else if val < min ∨ max < val then none
  else some val

abbrev FlagNames := List (Text × Nat)

def keyMgmtNames : FlagNames :=
  [("WPA-PSK".toList, 1 <<< 1), ("WPA-EAP".toList, 1 <<< 0),
    ("IEEE8021X".toList, 1 <<< 3), ("NONE".toList, 1 <<< 2),
    ("WPA-NONE".toList, 1 <<< 4)]

def cipherNames : FlagNames :=
  [("CCMP-256".toList, 1 <<< 9), ("GCMP-256".toList, 1 <<< 8),
    ("CCMP".toList, 1 <<< 4), ("GCMP".toList, 1 <<< 6),
    ("TKIP".toList, 1 <<< 3), ("WEP104".toList, 1 <<< 2),
    ("WEP40".toList, 1 <<< 1), ("NONE".toList, 1 <<< 0),
    ("GTK_NOT_USED".toList, 1 <<< 14)]

def protoNames : FlagNames :=
  [("WPA".toList, 1 <<< 0), ("RSN".toList, 1 <<< 1), ("WPA2".toList, 1 <<< 1),
    ("OSEN".toList, 1 <<< 3)]

def authAlgNames : FlagNames :=
  [("OPEN".toList, 1 <<< 0), ("SHARED".toList, 1 <<< 1),
    ("LEAP".toList, 1 <<< 2)]

/-- `val` and `errors` behind a word. -/
def flagWord {ρ : Type} (names : FlagNames) (state : Nat × Nat) (word : Text) :
    Except ρ (Nat × Nat) :=
  match names.lookup word with
  | some flag => .ok (state.1 ||| flag, state.2)
  | none => .ok (state.1, state.2 + 1)

/-- A parser that counts errors and wants a value; `dup` is whether the text
could be copied. -/
def parseFlags (names : FlagNames) (dup : Bool) (value : Text) : Int :=
  if ¬ dup then -1
  else
    match overWords isBlank (flagWord (ρ := Nat × Nat) names) (value.length + 1)
      value (0, 0) with
    | .error _ => -1
    | .ok (val, errors) =>
        let errors := if val = 0 then errors + 1 else errors
        if errors ≠ 0 then -1 else val

def cmdWpasParseKeyMgmt : Bool → Text → Int := parseFlags keyMgmtNames

def cmdWpasParseAuthAlg : Bool → Text → Int := parseFlags authAlgNames

def cipherWord (val : Nat) (word : Text) : Except Int Nat :=
  match cipherNames.lookup word with
  | some flag => .ok (val ||| flag)
  | none => .error (-1)

def cmdWpasParseCipher (dup : Bool) (value : Text) : Int :=
  if ¬ dup then -1
  else
    match overWords isBlank cipherWord (value.length + 1) value 0 with
    | .error ret => ret
    | .ok val => val

def protoNone : Text := "NONE".toList

/-- The word `NONE` ends the loop with no value, whatever was read before. -/
def protoWord (state : Nat × Nat) (word : Text) :
    Except (Nat × Nat) (Nat × Nat) :=
  if word = protoNone then .error (0, state.2)
  else flagWord protoNames state word

def cmdWpasParseProto (dup : Bool) (value : Text) : Int :=
  if ¬ dup then -1
  else
    let (val, errors) :=
      match overWords isBlank protoWord (value.length + 1) value (0, 0) with
      | .error state => state
      | .ok state => state
    if errors ≠ 0 then -1 else val

/-! ### Configurations -/

inductive StaField where
  | ssid
  | psk
  | wepKey0
  | wepKey1
  | wepKey2
  | wepKey3
  | wepKeyIndex
  | keyMgmt
  | pairwiseCipher
  | groupCipher
  | proto
  | authAlg
  | wpaPtkRekey
  | scanSsid
deriving DecidableEq

inductive ApField where
  | ssid
  | psk
  | keyMgmt
  | wpaCipher
  | rsnCipher
  | proto
  | authAlg
  | groupRekey
  | strictRekey
  | gmkRekey
  | ptkRekey
  | hwMode
  | ieee80211n
  | channel
  | beaconInt
  | dtim
  | maxNumSta
deriving DecidableEq

/-- What is stored in the union: an SSID with its length, a key in front of its
zero, or a number. -/
inductive ConfigValue where
  | ssid (ssid : Text) (ssidLen : Nat)
  | key (key : Text)
  | number (value : Int)
deriving DecidableEq

structure Config (φ : Type) where
  field : φ
  u : ConfigValue
deriving DecidableEq

/-- The length is held in a `uint8_t`. -/
def setSsid (least : Nat) (value : Text) : Option ConfigValue :=
  let ssidLen := value.length % 2 ^ 8
  if least ≤ ssidLen ∧ ssidLen ≤ WLAN_SSID_MAX_LEN then
    some (.ssid (value.take ssidLen) ssidLen)
  else none

/-- `strlcpy` into an array of this size. -/
def setKey (size : Nat) (value : Text) : Option ConfigValue :=
  some (.key (value.take (size - 1)))

def setInt (min max : Int) (value : Text) : Option ConfigValue :=
  (cmdWpasParseInt value min max).map .number

/-- What is not smaller than `least` is set. -/
def setFlags (least val : Int) : Option ConfigValue :=
  if least ≤ val then some (.number val) else none

/-- `WLAN_AP_HW_MODE_IEEE80211B` and `WLAN_AP_HW_MODE_IEEE80211G`. -/
def setHwMode (value : Text) : Option ConfigValue :=
  if value = "b".toList then some (.number 0)
  else if value = "g".toList then some (.number 1)
  else none

/-- The field and the value, in front of the first blank and behind it. -/
def splitField (cmd : Text) : Option (Text × Text) :=
  match cmd.dropWhile fun char => decide (char ≠ ' ') with
  | [] => none
  | _ :: value => some (cmd.takeWhile fun char => decide (char ≠ ' '), value)

def configOf {φ : Type} (field : φ) (u : Option ConfigValue) :
    Option (Config φ) :=
  u.map fun u => { field, u }

/-- The configuration that `wlan_sta_set_config` is called with, if it is. -/
def cmdWlanStaSet (dup : Bool) (cmd : Text) : Option (Config StaField) :=
  match splitField cmd with
  | none => none
  | some (field, value) =>
      if field = "ssid".toList then configOf .ssid (setSsid 0 value)
      else if field = "psk".toList then configOf .psk (setKey pskSize value)
      else if field = "wep_key0".toList then
        configOf .wepKey0 (setKey wepKeySize value)
      else if field = "wep_key1".toList then
        configOf .wepKey1 (setKey wepKeySize value)
      else if field = "wep_key2".toList then
        configOf .wepKey2 (setKey wepKeySize value)
      else if field = "wep_key3".toList then
        configOf .wepKey3 (setKey wepKeySize value)
      else if field = "wep_key_index".toList then
        configOf .wepKeyIndex (setInt 0 3 value)
      else if field = "key_mgmt".toList then
        configOf .keyMgmt (setFlags 1 (cmdWpasParseKeyMgmt dup value))
      else if field = "pairwise".toList then
        configOf .pairwiseCipher (setFlags 1 (cmdWpasParseCipher dup value))
      else if field = "group".toList then
        configOf .groupCipher (setFlags 1 (cmdWpasParseCipher dup value))
      else if field = "proto".toList then
        configOf .proto (setFlags 0 (cmdWpasParseProto dup value))
      else if field = "auth_alg".toList then
        configOf .authAlg (setFlags 1 (cmdWpasParseAuthAlg dup value))
      else if field = "ptk_rekey".toList then
        configOf .wpaPtkRekey (setInt 0 INT32_MAX value)
      else if field = "scan_ssid".toList then configOf .scanSsid (setInt 0 1 value)
      else none

/-- The configuration that `wlan_ap_set_config` is called with, if it is. -/
def cmdWlanApSet (dup : Bool) (cmd : Text) : Option (Config ApField) :=
  match splitField cmd with
  | none => none
  | some (field, value) =>
      if field = "ssid".toList then configOf .ssid (setSsid 1 value)
      else if field = "psk".toList then configOf .psk (setKey pskSize value)
      else if field = "key_mgmt".toList then
        configOf .keyMgmt (setFlags 1 (cmdWpasParseKeyMgmt dup value))
      else if field = "wpa".toList then
        configOf .wpaCipher (setFlags 1 (cmdWpasParseCipher dup value))
      else if field = "rsn".toList then
        configOf .rsnCipher (setFlags 1 (cmdWpasParseCipher dup value))
      else if field = "proto".toList then
        configOf .proto (setFlags 0 (cmdWpasParseProto dup value))
      else if field = "auth_alg".toList then
        configOf .authAlg (setFlags 1 (cmdWpasParseAuthAlg dup value))
      else if field = "group_rekey".toList then
        configOf .groupRekey (setInt 0 INT32_MAX value)
      else if field = "strict_rekey".toList then
        configOf .strictRekey (setInt 0 1 value)
      else if field = "gmk_rekey".toList then
        configOf .gmkRekey (setInt 0 INT32_MAX value)
      else if field = "ptk_rekey".toList then
        configOf .ptkRekey (setInt 0 INT32_MAX value)
      else if field = "hw_mode".toList then configOf .hwMode (setHwMode value)
      else if field = "80211n".toList then configOf .ieee80211n (setInt 0 1 value)
      else if field = "channel".toList then configOf .channel (setInt 1 14 value)
      else if field = "beacon_int".toList then
        configOf .beaconInt (setInt 15 65535 value)
      else if field = "dtim".toList then configOf .dtim (setInt 1 255 value)
      else if field = "max_num_sta".toList then
        configOf .maxNumSta (setInt 0 INT32_MAX value)
      else none

/-! ### Lines -/

/-- What `cmd_memcpy` puts at the array of the SSID, its length, and the
passphrase in front of its zero. -/
structure GenPskParam where
  ssid : Text
  ssidLen : Nat
  passphrase : Text
deriving DecidableEq

inductive StaCall where
  | set (ssid : Text) (psk : Option Text)
  | setConfig (config : Config StaField)
  | getConfig (field : StaField)
  | enable
  | disable
  | scanOnce
  | scanResult (size : Int)
  | scanInterval (sec : Int)
  | bssMaxCount (count : Int)
  | bssFlush (age : Int)
  | connect
  | disconnect
  | state
  | apInfo
  | genPsk (param : GenPskParam)
  | wpsPbc
  | wpsPinGet
  | wpsPinSet (pin : Text)
  | stop
  | start
deriving DecidableEq

/-- A line is unknown, fails before the driver is called, or calls it. -/
inductive StaAnswer where
  | unknown
  | invalidArg
  | failed
  | called (call : StaCall)
deriving DecidableEq

/-- Which allocations succeed, and whether there is a `sysinfo`. -/
structure StaEnvironment where
  dup : Bool
  malloc : Bool
  sysinfo : Bool

def CMD_WLAN_MAX_BSS_CNT : Int := 50

/-- `cmd_strncmp` with the length of the keyword. -/
def startsWith (keyword : String) (cmd : Text) : Bool :=
  keyword.toList.isPrefixOf cmd

def staFieldNames : List (Text × StaField) :=
  [("ssid".toList, .ssid), ("psk".toList, .psk), ("wep_key0".toList, .wepKey0),
    ("wep_key1".toList, .wepKey1), ("wep_key2".toList, .wepKey2),
    ("wep_key3".toList, .wepKey3), ("wep_key_index".toList, .wepKeyIndex),
    ("key_mgmt".toList, .keyMgmt), ("pairwise".toList, .pairwiseCipher),
    ("group".toList, .groupCipher), ("proto".toList, .proto),
    ("auth_alg".toList, .authAlg), ("ptk_rekey".toList, .wpaPtkRekey),
    ("scan_ssid".toList, .scanSsid)]

def intAnswer (val : Option Int) (call : Int → StaCall) : StaAnswer :=
  match val with
  | none => .invalidArg
  | some val => .called (call val)

/-- The SSID is copied with a length of 8 bits that nothing compares with the
array. -/
def genPskAnswer : List Text → StaAnswer
  | [ssid, passphrase] =>
      let ssidLen := ssid.length % 2 ^ 8
      .called (.genPsk
        { ssid := ssid.take ssidLen
          ssidLen := ssidLen
          passphrase := passphrase.take (passphraseSize - 1) })
  | _ => .invalidArg

def cmdWlanStaExec (env : StaEnvironment) (cmd : Text) : StaAnswer :=
  if startsWith "config " cmd then
    match cmdParseArgv 2 (cmd.drop 7) with
    | [] => .invalidArg
    | ssid :: psk => .called (.set ssid psk.head?)
  else if startsWith "set " cmd then
    match cmdWlanStaSet env.dup (cmd.drop 4) with
    | none => .invalidArg
    | some config => .called (.setConfig config)
  else if startsWith "get " cmd then
    match staFieldNames.lookup (cmd.drop 4) with
    | none => .invalidArg
    | some field => .called (.getConfig field)
  else if cmd = "enable".toList then .called .enable
  else if cmd = "disable".toList then .called .disable
  else if cmd = "scan once".toList then .called .scanOnce
  else if startsWith "scan result " cmd then
    match cmdWpasParseInt (cmd.drop 12) 1 CMD_WLAN_MAX_BSS_CNT with
    | none => .invalidArg
    | some size => if env.malloc then .called (.scanResult size) else .failed
  else if startsWith "scan interval " cmd then
    intAnswer (cmdWpasParseInt (cmd.drop 14) 0 INT32_MAX) .scanInterval
  else if startsWith "bss max count " cmd then
    intAnswer (cmdWpasParseInt (cmd.drop 14) 1 CMD_WLAN_MAX_BSS_CNT)
      .bssMaxCount
  else if startsWith "bss flush " cmd then
    intAnswer (cmdWpasParseInt (cmd.drop 10) 0 INT32_MAX) .bssFlush
  else if cmd = "connect".toList then .called .connect
  else if cmd = "disconnect".toList then .called .disconnect
  else if cmd = "state".toList then .called .state
  else if cmd = "ap".toList then
    if env.malloc then .called .apInfo else .failed
  else if startsWith "genpsk " cmd then
    genPskAnswer (cmdParseArgv 2 (cmd.drop 7))
  else if cmd = "wps pbc".toList then .called .wpsPbc
  else if cmd.length = 7 ∨ cmd = "wps pin".toList then .called .wpsPinGet
  else if startsWith "wps pin " cmd then
    if (cmd.drop 8).length ≠ 8 then .invalidArg
    else .called (.wpsPinSet (cmd.drop 8))
  else if cmd = "stop".toList then .called .stop
  else if cmd = "start".toList then
    if env.sysinfo then .called .start else .failed
  else .unknown

/-! ### Lines whose arguments are read first -/

variable (env : StaEnvironment) (rest : Text)

theorem cmdWlanStaExec_config :
    cmdWlanStaExec env ("config ".toList ++ rest) =
      match cmdParseArgv 2 rest with
      | [] => .invalidArg
      | ssid :: psk => .called (.set ssid psk.head?) := rfl

theorem cmdWlanStaExec_set :
    cmdWlanStaExec env ("set ".toList ++ rest) =
      match cmdWlanStaSet env.dup rest with
      | none => .invalidArg
      | some config => .called (.setConfig config) := rfl

theorem cmdWlanStaExec_get :
    cmdWlanStaExec env ("get ".toList ++ rest) =
      match staFieldNames.lookup rest with
      | none => .invalidArg
      | some field => .called (.getConfig field) := rfl

theorem cmdWlanStaExec_scanResult :
    cmdWlanStaExec env ("scan result ".toList ++ rest) =
      match cmdWpasParseInt rest 1 CMD_WLAN_MAX_BSS_CNT with
      | none => .invalidArg
      | some size =>
          if env.malloc then .called (.scanResult size) else .failed := rfl

end XR872.Wlan
