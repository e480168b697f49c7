/-
The configuration and the commands that change it.

`at_cfg` is plain memory, one variable behind the other: what is stored behind
the end of a variable is found in the next ones.
-/

import XR872.AtCmd.Parameter
import XR872.Library.Memory

namespace XR872.AtCmd

open BitView
open Memories

/-- The members of `at_config_t`. -/
inductive CfgField where
  | nvManuf
  | nvModel
  | nvSerial
  | nvWifiMacaddr
  | blinkLed
  | windOffLow
  | windOffMedium
  | windOffHigh
  | userDesc
  | escapeSeq
  | localecho1
  | console1Speed
  | console1Hwfc
  | console1Enabled
  | sleepEnabled
  | standbyEnabled
  | standbyTime
  | wifiTxMsduLifetime
  | wifiRxMsduLifetime
  | wifiOperationalMode
  | wifiBeaconWakeup
  | wifiBeaconInterval
  | wifiListenInterval
  | wifiRtsThreshold
  | wifiSsid
  | wifiSsidLen
  | wifiChannelnum
  | wifiOprRateMask
  | wifiBasRateMask
  | wifiMode
  | wifiAuthType
  | wifiPowersave
  | wifiTxPower
  | wifiRssiThresh
  | wifiRssiHyst
  | wifiApIdleTimeout
  | wifiBeaconLossThresh
  | wifiPrivMode
  | wifiWepKeys
  | wifiWepKeyLens
  | wifiWepDefaultKey
  | wifiWpaPskRaw
  | wifiWpaPskText
  | ipUseDhcp
  | ipUseHttpd
  | ipMtu
  | ipHostname
  | ipApdomainname
  | ipIpaddr
  | ipNetmask
  | ipGw
  | ipDns
  | ipHttpGetRecvTimeout
  | ipDhcpTimeout
  | ipSockdTimeout
deriving DecidableEq, Repr

namespace CfgField

def all : List CfgField :=
  [ nvManuf, nvModel, nvSerial, nvWifiMacaddr, blinkLed, windOffLow,
    windOffMedium, windOffHigh, userDesc, escapeSeq, localecho1, console1Speed,
    console1Hwfc, console1Enabled, sleepEnabled, standbyEnabled, standbyTime,
    wifiTxMsduLifetime, wifiRxMsduLifetime, wifiOperationalMode,
    wifiBeaconWakeup, wifiBeaconInterval, wifiListenInterval, wifiRtsThreshold,
    wifiSsid, wifiSsidLen, wifiChannelnum, wifiOprRateMask, wifiBasRateMask,
    wifiMode, wifiAuthType, wifiPowersave, wifiTxPower, wifiRssiThresh,
    wifiRssiHyst, wifiApIdleTimeout, wifiBeaconLossThresh, wifiPrivMode,
    wifiWepKeys, wifiWepKeyLens, wifiWepDefaultKey, wifiWpaPskRaw,
    wifiWpaPskText, ipUseDhcp, ipUseHttpd, ipMtu, ipHostname, ipApdomainname,
    ipIpaddr, ipNetmask, ipGw, ipDns, ipHttpGetRecvTimeout, ipDhcpTimeout,
    ipSockdTimeout ]

/-- The C type of a member or of its elements. -/
def type : CfgField → AtParaType
  | nvManuf | nvModel | nvSerial | userDesc | escapeSeq | wifiWpaPskText
  | ipHostname | ipApdomainname => .text
  | nvWifiMacaddr | wifiSsid | wifiWepKeys | wifiWepKeyLens | wifiWpaPskRaw =>
      .hex
  | windOffLow | windOffMedium | windOffHigh | wifiOperationalMode
  | wifiOprRateMask | wifiBasRateMask => .hi
  | ipIpaddr | ipNetmask | ipGw | ipDns => .ip
  | _ => .di

def size : CfgField → Nat
  | nvManuf | nvModel | nvSerial | ipHostname | ipApdomainname => 32
  | nvWifiMacaddr => 6
  | userDesc | wifiWpaPskText => 64
  | escapeSeq => 8
  | wifiSsid | wifiWpaPskRaw => 32
  | wifiWepKeys => 64
  | _ => 4

def align (field : CfgField) : Nat :=
  match field.type with
  | .di | .hi => 4
  | _ => 1

def offset (field : CfgField) : Nat := placeFrom align size 0 all field

/-- The bytes of a variable. -/
def bytes (field : CfgField) (cfg : Nat → Byte) : List Byte :=
  load cfg field.offset field.size

def Covers (field : CfgField) (address : Nat) : Prop :=
  field.offset ≤ address ∧ address < field.offset + field.size

theorem align_pos (field : CfgField) : 0 < field.align := by
  unfold align
  split <;> decide

theorem mem_all (field : CfgField) : field ∈ all := by
  cases field <;> decide

theorem apart (left right : CfgField) (different : left ≠ right) :
    left.offset + left.size ≤ right.offset ∨
      right.offset + right.size ≤ left.offset :=
  placeFrom_apart align_pos 0 all left right left.mem_all right.mem_all different

end CfgField

/-! ### The table -/

inductive AtParaOption where
  | ro
  | rw
deriving DecidableEq, Repr

structure AtVarDescriptor where
  key : List Byte
  pt : AtParaType
  po : AtParaOption
  pvar : CfgField
  vsize : Nat
  /-- The check of `value->di`. -/
  verify : Option (Int → Bool)

def inRange (low high : Int) (di : Int) : Bool := low ≤ di && di ≤ high

def localecho1Verify : Int → Bool := inRange 0 1

def console1SpeedVerify (di : Int) : Bool :=
  [9600, 19200, 38400, 115200, 921600].contains di

def console1HwfcVerify : Int → Bool := inRange 0 1

def wifiSsidLenVerify : Int → Bool := inRange 0 32

def wifiModeVerify : Int → Bool := inRange 0 3

def ipUseDhcpVerify : Int → Bool := inRange 0 2

/-- A row of the table; every row has the size of its variable. -/
def atVar (key : String) (pt : AtParaType) (po : AtParaOption)
    (pvar : CfgField) (verify : Option (Int → Bool)) : AtVarDescriptor :=
  { key := charBytes key, pt, po, pvar, vsize := pvar.size, verify }

def atCfgTable : List AtVarDescriptor :=
  [ atVar "nv_manuf" .text .ro .nvManuf none,
    atVar "nv_model" .text .ro .nvModel none,
    atVar "nv_serial" .text .ro .nvSerial none,
    atVar "nv_wifi_macaddr" .hex .ro .nvWifiMacaddr none,
    atVar "wind_off_low" .hi .rw .windOffLow none,
    atVar "wind_off_medium" .hi .rw .windOffMedium none,
    atVar "wind_off_high" .hi .rw .windOffHigh none,
    atVar "user_desc" .text .rw .userDesc none,
    atVar "escape_seq" .text .rw .escapeSeq none,
    atVar "localecho1" .di .rw .localecho1 localecho1Verify,
    atVar "console1_speed" .di .rw .console1Speed console1SpeedVerify,
    atVar "console1_hwfc" .di .rw .console1Hwfc console1HwfcVerify,
    atVar "wifi_channelnum" .di .rw .wifiChannelnum none,
    atVar "wifi_mode" .di .rw .wifiMode wifiModeVerify,
    atVar "wifi_ssid" .hex .rw .wifiSsid none,
    atVar "wifi_ssid_len" .di .rw .wifiSsidLen wifiSsidLenVerify,
    atVar "wifi_wpa_psk_text" .text .rw .wifiWpaPskText none,
    atVar "ip_use_dhcp" .di .rw .ipUseDhcp ipUseDhcpVerify,
    atVar "ip_ipaddr" .ip .rw .ipIpaddr none,
    atVar "ip_netmask" .ip .rw .ipNetmask none,
    atVar "ip_gw" .ip .rw .ipGw none,
    atVar "ip_dns" .ip .rw .ipDns none ]

/-- The row that the loops over the table stop at. -/
def atCfgFind (key : List Byte) : Option AtVarDescriptor :=
  atCfgTable.find? fun row => decide (cString key = row.key)

/-! ### Changes -/

/-- A value of another type than the variable does not get here. -/
def atSetValue (pt : AtParaType) (cfg : Nat → Byte) (pvar vsize : Nat)
    (value : AtValue) : Nat → Byte :=
  match pt, value with
  | .text, .text text => store cfg pvar (cString text ++ [0])
  | .hex, .hex hex => store cfg pvar (hex.take vsize)
  | .di, .di di => store cfg pvar (toBytes di)
  | .hi, .hi hi => store cfg pvar (toBytes hi)
  | .ip, .ip ip => store cfg pvar (ip.take vsize)
  | _, _ => cfg

def AtVarDescriptor.verified (row : AtVarDescriptor) (value : AtValue) : Bool :=
  match row.verify, value with
  | some verify, .di di => verify di.toInt
  | some _, _ => false
  | none, _ => true

/-- `AEC_NOT_FOUND` is no parameter type. -/
def atTypecfg (key : List Byte) : Option AtParaType :=
  (atCfgFind key).map AtVarDescriptor.pt

def atSetcfg (cfg : Nat → Byte) (key : List Byte) (value : AtValue) :
    AtErrorCode × (Nat → Byte) :=
  match atCfgFind key with
  | none => (.notFound, cfg)
  | some row =>
      if row.po ≠ .rw then (.readOnly, cfg)
      else if row.verified value then
        (.ok, atSetValue row.pt cfg row.pvar.offset row.vsize value)
      else (.outOfRange, cfg)

/-- All of the text goes to `wifi_ssid`, however long it is. -/
def atSsidtxt (cfg : Nat → Byte) (ssid : List Byte) :
    AtErrorCode × (Nat → Byte) :=
  let len := (cString ssid).length
  let cleared := store cfg CfgField.wifiSsid.offset
    (List.replicate CfgField.wifiSsid.size 0)
  let copied := store cleared CfgField.wifiSsid.offset (cString ssid)
  (.ok, store copied CfgField.wifiSsidLen.offset (toBytes (BitVec.ofNat 32 len)))

/-! ### Handlers -/

def cmdKeyList : List AtParaDescriptor :=
  [{ pt := .text, option := AET_PARA ||| SIZE_LIMIT AT_PARA_MAX_SIZE }]

def cmdValueList : List AtParaDescriptor :=
  [ { pt := .text, option := AET_LINE ||| SIZE_LIMIT AT_PARA_MAX_SIZE },
    { pt := .hex, option := AET_LINE ||| SIZE_LIMIT AT_PARA_MAX_SIZE },
    { pt := .di, option := AET_LINE ||| SIZE_LIMIT 4 },
    { pt := .hi, option := AET_LINE ||| SIZE_LIMIT 4 },
    { pt := .ip, option := AET_LINE ||| SIZE_LIMIT 4 } ]

/-- What `setcfg_handler` takes from the line for `at_setcfg`. -/
def setcfgArguments (ptr : List Byte) :
    Except AtErrorCode (List Byte × AtValue) :=
  match ptr with
  | [] => .error .noPara
  | char :: rest =>
      if char ≠ AT_EQU then .error .noPara
      else
        match atGetParameters cmdKeyList rest with
        | (.ok, [.text key], ptr) =>
            match cmdValueList.find? fun descriptor =>
                decide (some descriptor.pt = atTypecfg key) with
            | none => .error .notFound
            | some descriptor =>
                match atGetParameters [descriptor] ptr with
                | (.ok, [value], _) => .ok (key, value)
                | _ => .error .paraError
        | _ => .error .paraError

def setcfgHandler (cfg : Nat → Byte) (ptr : List Byte) :
    AtErrorCode × (Nat → Byte) :=
  match setcfgArguments ptr with
  | .error answer => (answer, cfg)
  | .ok (key, value) => atSetcfg cfg key value

/-- What `ssidtxt_handler` takes from the line for `at_ssidtxt`. -/
def ssidtxtArguments (ptr : List Byte) : Except AtErrorCode (List Byte) :=
  match ptr with
  | [] => .error .noPara
  | char :: rest =>
      if char ≠ AT_EQU then .error .noPara
      else
        match atGetParameters
            [{ pt := .text, option := AET_LINE ||| SIZE_LIMIT AT_PARA_MAX_SIZE }]
            rest with
        | (.ok, [.text ssid], _) => .ok ssid
        | _ => .error .paraError

def ssidtxtHandler (cfg : Nat → Byte) (ptr : List Byte) :
    AtErrorCode × (Nat → Byte) :=
  match ssidtxtArguments ptr with
  | .error answer => (answer, cfg)
  | .ok ssid => atSsidtxt cfg ssid

end XR872.AtCmd
