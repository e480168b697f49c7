/-
`smartlink/smartconfig/smart_config_decode.c`, its caller
`smartconfig_recv_rawframe`, and from `smart_config_crc.c` the checksum of the
lead codes and fields and the AES decryption of a field.

The decoder reports every access to a buffer with the object it is made to, the
offset and the length, and takes effect in the memory behind the object: the
fields of `result` lie one after another, so that an access past one of them
reaches the next. Where an access leaves that memory the computation stops.
It runs in the receive callback, which records what it reports in `status`; the
decoder alone is also run from whatever `status` it is given.

The Crypto Engine is a block function. `HAL_AES_Decrypt` feeds it whole blocks,
the last one padded with zeros, and stores every block it returns. It fails
only when its lock is not taken, before it touches either buffer.
-/

import XR872.Library.Bitmap
import XR872.Library.Trace

namespace XR872.SmartConfig

open BitView
open Buffers
open Bitmaps
open Traces

/-! ### Checksum -/

def crc8Poly : Byte := 0x31

def calCrc8Bit (crc : Byte) : Byte :=
  if crc &&& 0x1 ≠ 0 then (crc >>> 1) ^^^ crc8Poly else crc >>> 1

def calCrc8Byte (crc byte : Byte) : Byte :=
  Nat.iterate calCrc8Bit 8 (crc ^^^ byte)

/-- `cal_crc8`, from `CRC8_INIT`. -/
def calCrc8 (bytes : List Byte) : Byte := bytes.foldl calCrc8Byte 0x0

/-! ### Decryption -/

def aesBlockSize : Nat := 16

/-- The Crypto Engine during one frame: whether its lock is taken for the
passphrase and for the ssid, and its block function under the key it got. -/
structure CryptoEngine where
  pwdLocked : Bool
  ssidLocked : Bool
  decrypt : List Byte → Buffer Byte 16

/-- How many blocks `HAL_Crypto_Convey` stores for `size` bytes. -/
def conveyedBlocks (size : Nat) : Nat :=
  size / aesBlockSize + (if size % aesBlockSize = 0 then 0 else 1)

/-- `HAL_Crypto_Convey` in CPU mode. -/
def halCryptoConvey (engine : CryptoEngine) (input : List Byte) : List Byte :=
  (List.range (conveyedBlocks input.length)).flatMap fun block =>
    let piece := (input.drop (aesBlockSize * block)).take aesBlockSize
    (engine.decrypt
      (piece ++ List.replicate (aesBlockSize - piece.length) 0)).cells

theorem length_halCryptoConvey (engine : CryptoEngine) (input : List Byte) :
    (halCryptoConvey engine input).length =
      aesBlockSize * conveyedBlocks input.length := by
  unfold halCryptoConvey
  rw [List.length_flatMap]
  simp only [Buffer.size]
  rw [List.map_const', List.length_range, List.sum_replicate, smul_eq_mul,
    Nat.mul_comm]
  rfl

/-! ### Data -/

/-- `SMART_CONFIG_STATUS_T`. -/
inductive ScStatus
  | «end» | searchChan | lockedChan | complete
deriving DecidableEq, Repr

/-- The enumeration's value. -/
def ScStatus.code : ScStatus → Nat
  | .end => 0
  | .searchChan => 1
  | .lockedChan => 2
  | .complete => 3

/-- `sc_lead_code_t`. -/
structure LeadCode where
  channel : Byte
  ssidpwdLen : Nat
  pwdLen : Int
  packetTotal : Nat
  packetCount : Nat
  random : Byte
  lockedMacFlag : Bool
  leadCompleteFlag : Bool
  countPkt : Buffer Byte 16
deriving DecidableEq, Repr

def srcDataSize : Nat := 128
def resultSize : Nat := 99

/-- The offsets of `sc_result_t`. -/
def ssidOffset : Nat := 0
def pwdOffset : Nat := 32
def ssidLenOffset : Nat := 96
def pwdLenOffset : Nat := 97
def randomOffset : Nat := 98

/-- `smartconfig_priv_t`; `result` is its memory. -/
structure Priv where
  aesKey : Buffer Byte 16
  leadCode : LeadCode
  status : ScStatus
  result : Buffer Byte resultSize
  srcDataBuff : Buffer Byte srcDataSize
deriving DecidableEq, Repr

/-- The objects the decoder accesses by an offset it computes. -/
inductive Region
  | countPkt | srcData | ssid | pwd | tempPwd | tempSsid
deriving DecidableEq, Repr

def Region.size : Region → Nat
  | .countPkt => 16
  | .srcData => srcDataSize
  | .ssid => 32
  | .pwd => 64
  | .tempPwd => 66
  | .tempSsid => 65

inductive ScaStatus
  | channelLocked | complete
deriving DecidableEq, Repr

inductive Event
  | load (region : Region) (offset : Int) (len : Nat)
  | store (region : Region) (offset : Int) (len : Nat)
  /-- `dec_data_decode` is entered, with the total it was entered for. -/
  | decode (packetTotal : Nat)
  /-- `sc_reset_lead_code`. -/
  | reset
  /-- `sc_assistant_newstatus`. -/
  | newstatus (status : ScaStatus) (apMac : Option (List Byte))
deriving DecidableEq, Repr

/-- The bytes of an access that touches any lie in the object. -/
def Event.inside : Event → Prop
  | .load region offset len | .store region offset len =>
      len = 0 ∨ (0 ≤ offset ∧ offset + len ≤ region.size)
  | _ => True

/-- A received frame. -/
structure Frame where
  len : Nat
  fc1 : Byte
  addr1 : Buffer Byte 6
  addr2 : Buffer Byte 6
  addr3 : Buffer Byte 6
deriving DecidableEq, Repr

def Frame.packetNum (frame : Frame) : Nat := (frame.addr3.cells.getD 3 0).toNat

abbrev ScM (α : Type) := Traced Priv Event α

/-! ### Memory -/

/-- `len` bytes of `src_data_buff`. -/
def loadSrc (offset len : Nat) : ScM (List Byte) := do
  Traced.emit (.load .srcData offset len)
  let priv ← Traced.get
  if len = 0 ∨ offset + len ≤ srcDataSize then
    pure ((priv.srcDataBuff.cells.drop offset).take len)
  else Traced.stop

def storeSrc (offset : Nat) (data : List Byte) : ScM Unit := do
  Traced.emit (.store .srcData offset data.length)
  if within : offset + data.length ≤ srcDataSize then
    Traced.update fun priv =>
      { priv with srcDataBuff := priv.srcDataBuff.store offset data within }
  else Traced.stop

/-- Where a field of `result` starts. -/
def fieldBase : Region → Nat
  | .pwd => pwdOffset
  | _ => ssidOffset

def loadResult (field : Region) (len : Nat) : ScM (List Byte) := do
  Traced.emit (.load field 0 len)
  let priv ← Traced.get
  if len = 0 ∨ fieldBase field + len ≤ resultSize then
    pure ((priv.result.cells.drop (fieldBase field)).take len)
  else Traced.stop

def storeResult (field : Region) (offset : Nat) (data : List Byte) :
    ScM Unit := do
  Traced.emit (.store field offset data.length)
  if data = [] then pure ()
  else if within : fieldBase field + offset + data.length ≤ resultSize then
    Traced.update fun priv =>
      { priv with
        result := priv.result.store (fieldBase field + offset) data within }
  else Traced.stop

def Priv.resultByte (priv : Priv) (offset : Nat) : Byte :=
  priv.result.cells.getD offset 0

def setResultByte (offset : Nat) (value : Byte) : ScM Unit :=
  Traced.update fun priv =>
    { priv with result := priv.result.modify offset fun _ => value }

/-! ### Lead codes -/

def scResetLeadCode : LeadCode :=
  { channel := 0
    ssidpwdLen := 0
    pwdLen := -1
    packetTotal := 0
    packetCount := 0
    random := 0
    lockedMacFlag := false
    leadCompleteFlag := false
    countPkt := Buffer.fill 16 0 }

inductive LeadcodeSeq
  | nome | getChannel | getSsidpwdSize | getPwdSize | getRoundNum | complete
deriving DecidableEq, Repr

/-- The lead code has every part. -/
def LeadCode.ready (lead : LeadCode) : Prop :=
  ¬ (lead.ssidpwdLen = 0 ∨ lead.pwdLen = -1 ∨ lead.random = 0)

instance (lead : LeadCode) : Decidable lead.ready :=
  inferInstanceAs (Decidable (¬ _))

/-- The `switch` of `dec_get_lead_code`. -/
def takeLeadCode (lead : LeadCode) (packetNum : Nat) (data : Byte)
    (status : ScStatus) : LeadcodeSeq × LeadCode × ScStatus :=
  match packetNum with
  | 1 => (.getChannel, { lead with channel := data }, .lockedChan)
  | 2 =>
      (.getSsidpwdSize,
        { lead with
          ssidpwdLen := data.toNat
          packetTotal := data.toNat / 2 + 1 + data.toNat % 2 }, status)
  | 3 => (.getPwdSize, { lead with pwdLen := data.toNat }, status)
  | 4 => (.getRoundNum, { lead with random := data }, status)
  | _ => (.nome, lead, status)

def decGetLeadCode (frame : Frame) (lead : LeadCode) (packetNum : Nat)
    (status : ScStatus) : LeadcodeSeq × LeadCode × ScStatus :=
  let data := frame.addr3.cells.getD 4 0
  let crc := frame.addr3.cells.getD 5 0
  if packetNum = 0 ∨ 4 < packetNum then (.nome, lead, status)
  else if status = .lockedChan ∧ lead.ready then
    (.complete, { lead with lockedMacFlag := false }, status)
  else if calCrc8 [data] ≠ crc then (.nome, lead, status)
  else takeLeadCode { lead with lockedMacFlag := true } packetNum data status

/-! ### Data packets -/

def setLeadCode (change : LeadCode → LeadCode) : ScM Unit :=
  Traced.update fun priv => { priv with leadCode := change priv.leadCode }

def decValidPacketCount (packetNum : Nat) : ScM Bool := do
  if 127 < packetNum then pure false
  else
    Traced.emit (.load .countPkt (packetNum / 8 : Nat) 1)
    let priv ← Traced.get
    if marked priv.leadCode.countPkt packetNum then pure false
    else
      Traced.emit (.store .countPkt (packetNum / 8 : Nat) 1)
      setLeadCode fun lead =>
        { lead with countPkt := mark lead.countPkt packetNum }
      pure true

/-- `packet_num -= 5` in eight bits. -/
def packetIndex (packetNum : Nat) : Nat := (packetNum + 251) % 256

def decPushData (packetNum : Nat) (data : List Byte) : ScM Int := do
  let packetNum := packetIndex packetNum
  let fresh ← decValidPacketCount packetNum
  if fresh then
    setLeadCode fun lead => { lead with packetCount := lead.packetCount + 1 }
  storeSrc (2 * packetNum) data
  let priv ← Traced.get
  pure ((priv.leadCode.packetCount : Int) - priv.leadCode.packetTotal)

/-! ### Decoding -/

def srcSsidSize (lead : LeadCode) : Byte :=
  BitVec.ofInt 8 (lead.ssidpwdLen - lead.pwdLen)

def srcPwdSize (lead : LeadCode) : Byte := BitVec.ofInt 8 lead.pwdLen

def terminate : ScM Unit := do
  let priv ← Traced.get
  storeResult .pwd (priv.resultByte pwdLenOffset).toNat [0]
  let priv ← Traced.get
  storeResult .ssid (priv.resultByte ssidLenOffset).toNat [0]

/-- Both lengths and both fields, as they were received. -/
def copyFields (ssidSize pwdSize : Byte) : ScM Unit := do
  setResultByte ssidLenOffset ssidSize
  setResultByte pwdLenOffset pwdSize
  let priv ← Traced.get
  let ssid ← loadSrc pwdSize.toNat (priv.resultByte ssidLenOffset).toNat
  storeResult .ssid 0 ssid
  let priv ← Traced.get
  let pwd ← loadSrc 0 (priv.resultByte pwdLenOffset).toNat
  storeResult .pwd 0 pwd

/-- The branch of `dec_data_decode` without a key. -/
def decPlain (ssidSize pwdSize : Byte) : ScM Unit := do
  copyFields ssidSize pwdSize
  terminate

/-- The loop over the padding; `false` is the early `return -1`. The bytes in
front of `temp` are not known. -/
def checkPadding (region : Region) (temp : List Byte) (size dlen : Nat) :
    (left done : Nat) → ScM Bool
  | 0, _ => pure true
  | left + 1, done => do
      Traced.emit (.load region ((size : Int) - 1 - done) 1)
      if done < size then
        if (temp.getD (size - 1 - done) 0).toNat ≠ dlen then pure false
        else checkPadding region temp size dlen left (done + 1)
      else Traced.stop

inductive FieldAnswer
  | unavailable | wrongPadding | plain (len : Byte) (text : List Byte)
deriving DecidableEq, Repr

/-- The bytes in front of the first zero. -/
def cString (bytes : List Byte) : List Byte := bytes.takeWhile fun byte => byte ≠ 0

/-- The decryption of one field into its zeroed `temp`. -/
def decryptField (engine : CryptoEngine) (locked : Bool) (region : Region)
    (offset size : Nat) : ScM FieldAnswer := do
  if locked then
    let cipher ← loadSrc offset size
    let blocks := halCryptoConvey engine cipher
    Traced.emit (.store region 0 blocks.length)
    if within : 0 + blocks.length ≤ region.size then
      let temp := ((Buffer.fill region.size 0).store 0 blocks within).cells
      Traced.emit (.load region ((size : Int) - 1) 1)
      let dlen := (temp.getD (size - 1) 0).toNat
      let padded ← checkPadding region temp size dlen dlen 0
      if padded then
        let text := cString temp
        Traced.emit (.load region 0 (text.length + 1))
        pure (.plain (BitVec.ofInt 8 ((size : Int) - dlen)) text)
      else pure .wrongPadding
    else Traced.stop
  else pure .unavailable

/-- One field of the branch with a key; `false` is `return -1`. -/
def decField (engine : CryptoEngine) (locked : Bool) (temp field : Region)
    (lenOffset offset size : Nat) : ScM Bool := do
  if size = 0 then pure true
  else
    let answer ← decryptField engine locked temp offset size
    match answer with
    | .unavailable => pure true
    | .wrongPadding => pure false
    | .plain len text =>
        setResultByte lenOffset len
        storeResult field 0 text
        pure true

/-- The branch of `dec_data_decode` with a key; `false` is `return -1`. -/
def decAes (engine : CryptoEngine) (ssidSize pwdSize : Byte) : ScM Bool := do
  if 66 ≤ pwdSize.toNat ∨ 65 ≤ ssidSize.toNat then pure false
  else
    let decoded ← decField engine engine.pwdLocked .tempPwd .pwd pwdLenOffset 0
      pwdSize.toNat
    if decoded then
      let decoded ← decField engine engine.ssidLocked .tempSsid .ssid
        ssidLenOffset pwdSize.toNat ssidSize.toNat
      if decoded then
        terminate
        pure true
      else pure false
    else pure false

/-- `cal_crc8` over a field of `result`. -/
def fieldCrc8 (field : Region) (lenOffset : Nat) : ScM Byte := do
  let priv ← Traced.get
  let bytes ← loadResult field (priv.resultByte lenOffset).toNat
  pure (calCrc8 bytes)

/-- The two checksums at the end of `dec_data_decode`. -/
def checkFields (lead : LeadCode) : ScM Bool := do
  let place := lead.ssidpwdLen + lead.ssidpwdLen % 2
  let crc8Pwd ← loadSrc place 1
  let calculated ← fieldCrc8 .pwd pwdLenOffset
  if [calculated] ≠ crc8Pwd then
    storeSrc 0 [0]
    pure false
  else
    let crc8Ssid ← loadSrc (place + 1) 1
    let calculated ← fieldCrc8 .ssid ssidLenOffset
    storeSrc 0 [0]
    pure (decide ([calculated] = crc8Ssid))

def Priv.keyed (priv : Priv) : Bool := decide (priv.aesKey.cells.getD 0 0 ≠ 0)

/-- The two branches of `dec_data_decode`. -/
def decFields (engine : CryptoEngine) (lead : LeadCode) (keyed : Bool) :
    ScM Bool :=
  if keyed then decAes engine (srcSsidSize lead) (srcPwdSize lead)
  else do
    decPlain (srcSsidSize lead) (srcPwdSize lead)
    pure true

/-- `dec_data_decode` behind its first line. -/
def decodeFields (engine : CryptoEngine) (lead : LeadCode) (keyed : Bool) :
    ScM Bool := do
  let decoded ← decFields engine lead keyed
  if decoded then
    setResultByte randomOffset lead.random
    checkFields lead
  else pure false

/-- `dec_data_decode`; `true` is the return value 0. -/
def decDataDecode (engine : CryptoEngine) : ScM Bool := do
  let priv ← Traced.get
  Traced.emit (.decode priv.leadCode.packetTotal)
  decodeFields engine priv.leadCode priv.keyed

/-! ### Frames -/

def scMagic : List Byte := [0x01, 0x00, 0x5E]

/-- The decision after a packet, `status` being returned where there is none. -/
def decideDecode (engine : CryptoEngine) (status : ScStatus) :
    ScM ScStatus := do
  let priv ← Traced.get
  if priv.status.code < ScStatus.complete.code ∧
      priv.leadCode.packetTotal = priv.leadCode.packetCount then
    let decoded ← decDataDecode engine
    if decoded then pure .complete
    else
      Traced.emit .reset
      setLeadCode fun _ => scResetLeadCode
      storeSrc 0 [0]
      pure .end
  else pure status

def scDecPacketDecode (engine : CryptoEngine) (frame : Frame) :
    ScM ScStatus := do
  let priv ← Traced.get
  let packetNum := frame.packetNum
  if frame.addr3.cells.take 3 ≠ scMagic then pure priv.status
  else if 0 < packetNum ∧ packetNum < 5 then
    if priv.leadCode.leadCompleteFlag then pure priv.status
    else
      let (ret, lead, status) :=
        decGetLeadCode frame priv.leadCode packetNum priv.status
      setLeadCode fun _ =>
        if ret = .complete then { lead with leadCompleteFlag := true } else lead
      pure status
  else if ¬ priv.leadCode.leadCompleteFlag then pure priv.status
  else if packetNum ≤ 127 then
    let rest ← decPushData packetNum
      [frame.addr3.cells.getD 4 0, frame.addr3.cells.getD 5 0]
    if rest ≠ 0 then pure priv.status else decideDecode engine priv.status
  else decideDecode engine priv.status

/-! ### Sessions -/

/-- The memory behind `priv`, the events so far, and whether an access has left
the memory that is modelled. -/
structure Session where
  priv : Priv
  log : List Event
  stopped : Bool
deriving DecidableEq, Repr

def Session.perform {α : Type} (session : Session) (computation : ScM α) :
    Session :=
  if session.stopped then session
  else
    let done := computation session.priv
    { priv := done.state
      log := session.log ++ done.events
      stopped := done.value.isNone }

/-- `wlan_smart_config_start`, with the zeroed key where none is passed. -/
def wlanSmartConfigStart (aesKey : Buffer Byte 16) : Session :=
  { priv :=
      { aesKey := aesKey
        leadCode := scResetLeadCode
        status := .searchChan
        result := Buffer.fill resultSize 0
        srcDataBuff := Buffer.fill srcDataSize 0 }
    log := []
    stopped := false }

/-! ### The decoder alone -/

/-- What one call of the decoder is given. -/
structure Call where
  status : ScStatus
  engine : CryptoEngine
  frame : Frame

def Priv.withStatus (priv : Priv) (status : ScStatus) : Priv :=
  { priv with status := status }

def setStatus (status : ScStatus) : ScM Unit :=
  Traced.update fun priv => priv.withStatus status

def decodeCall (call : Call) : ScM ScStatus := do
  setStatus call.status
  scDecPacketDecode call.engine call.frame

def decodeTurn (session : Session) (call : Call) : Session :=
  session.perform (decodeCall call)

/-! ### The receive callback -/

def ieee80211FrameSize : Nat := 24

/-- The address `smartconfig_recv_rawframe` takes for the access point's. -/
def Frame.apMac (frame : Frame) : List Byte :=
  if frame.fc1 &&& 0x03 = 0x00 then frame.addr3.cells
  else if frame.fc1 &&& 0x03 = 0x02 then frame.addr2.cells
  else frame.addr1.cells

def smartconfigRecvRawframe (engine : CryptoEngine) (frame : Frame) :
    ScM Unit := do
  if frame.len < ieee80211FrameSize then pure ()
  else
    let status ← scDecPacketDecode engine frame
    let priv ← Traced.get
    if status = .complete ∧ priv.status.code < ScStatus.complete.code then
      setStatus status
      Traced.emit (.newstatus .complete none)
    else if status = .lockedChan ∧ priv.status ≠ status then
      setStatus status
      Traced.emit (.newstatus .channelLocked (some frame.apMac))
    else pure ()

def recvTurn (engine : CryptoEngine) (session : Session) (frame : Frame) :
    Session :=
  session.perform (smartconfigRecvRawframe engine frame)

/-! ### Frames of a transfer -/

/-- A frame whose address carries a packet number and two bytes. -/
def scFrame (packetNum first second : Byte) : Frame :=
  { len := ieee80211FrameSize
    fc1 := 0
    addr1 := Buffer.fill 6 0
    addr2 := Buffer.fill 6 0
    addr3 :=
      { cells := scMagic ++ [packetNum, first, second]
        size := rfl } }

def leadFrame (packetNum value : Byte) : Frame :=
  scFrame packetNum value (calCrc8 [value])

def dataFrame (index : Nat) (first second : Byte) : Frame :=
  scFrame (BitVec.ofNat 8 (index + 5)) first second

end XR872.SmartConfig
