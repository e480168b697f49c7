/-
The credentials of the MQTT connection, out of an HTTPS response.

A response reaches the caller through a global buffer and two static ones. No
answer of the exchange or of the parser is passed on: where there is none, the
buffers keep what an earlier call left in them.
-/

import XR872.AtCmd.SocketWrite
import XR872.Library.Run
import XR872.Library.Text

namespace XR872.Cloud

open AtCmd
open BitView
open Buffers
open Runs
open Texts

def HTTP_STATUS_OK : Nat := 200

def HTTP_STATUS_OBJECT_MOVED : Nat := 302

def HTTP_STATUS_OBJECT_MOVED_PERMANENTLY : Nat := 301

def HTTP_CLIENT_EOS : Int := 1000

def HTTP_CLIENT_MAX_URL_LENGTH : Nat := 512

def SIGN_SOURCE_LEN : Nat := 256

def HTTP_POST_MAX_LEN : Nat := 1024

def HTTP_RESP_MAX_LEN : Nat := 1024

/-! ### The exchange -/

/-- What the HTTP client answers from one `HTTPC_open` on. -/
structure Attempt where
  opened : Int
  requested : Int
  informed : Int
  statusCode : Nat
  redirectLength : Nat
  bodyLength : Nat
  chunked : Bool
  readAnswer : Int
  body : List Byte
  bodyFits : body.length ≤ HTTP_RESP_MAX_LEN

/-- The buffer that was cleared and then read into. -/
def readBuffer (attempt : Attempt) : Buffer Byte HTTP_RESP_MAX_LEN :=
  (Buffer.fill HTTP_RESP_MAX_LEN 0).store 0 attempt.body
    (by rw [Nat.zero_add]; exact attempt.bodyFits)

/-- `alink_https_post` with its buffer: the answer, and the response. A copy
that leaves its array, like a text that does, has no outcome. Behind the end of
the list no connection can be opened. -/
def alinkHttpsPost (httpsRespData : Buffer Byte 1024) :
    List Attempt → Option (Int × Buffer Byte 1024)
  | [] => some (-1, httpsRespData)
  | attempt :: later =>
      if attempt.opened ≠ 0 then some (attempt.opened, httpsRespData)
      else if attempt.requested ≠ 0 then some (attempt.requested, httpsRespData)
      else if attempt.informed ≠ 0 then some (attempt.informed, httpsRespData)
      else if attempt.statusCode ≠ HTTP_STATUS_OK then
        if attempt.statusCode = HTTP_STATUS_OBJECT_MOVED ∨
            attempt.statusCode = HTTP_STATUS_OBJECT_MOVED_PERMANENTLY then
          if attempt.redirectLength < HTTP_CLIENT_MAX_URL_LENGTH then
            alinkHttpsPost httpsRespData later
          else some (0, httpsRespData)
        else some (-1, httpsRespData)
      else if attempt.bodyLength ≠ 0 ∨ attempt.chunked then
        if attempt.readAnswer = 0 then some (0, httpsRespData)
        else if attempt.readAnswer = HTTP_CLIENT_EOS then do
          let text ← readText (readBuffer attempt)
          let written ← writeText httpsRespData (text ++ [0])
          some (0, written)
        else some (attempt.readAnswer, httpsRespData)
      else some (0, httpsRespData)

/-- The arguments of a call, which of its allocations succeed, and what the
exchange answers. -/
structure Request where
  productKey : Text Byte
  deviceName : Text Byte
  clientId : Text Byte
  clientParamsAllocated : Bool
  bufAllocated : Bool
  postBufAllocated : Bool
  pbufferAllocated : Bool
  attempts : List Attempt
  /-- Whether each call of `cJSON_Parse` has memory. -/
  parserMemory : Fin 4 → Bool

def timestamp : List Byte := charBytes "2524608000000"

def signSource (request : Request) : List Byte :=
  charBytes "clientId" ++ request.clientId.chars ++ charBytes "deviceName" ++
    request.deviceName.chars ++ charBytes "productKey" ++
    request.productKey.chars ++ charBytes "timestamp" ++ timestamp

/-- The length of the content, with a sign of 32 hexadecimal digits. -/
def postLength (request : Request) : Nat :=
  (charBytes "productKey=").length + request.productKey.chars.length +
    (charBytes "&deviceName=").length + request.deviceName.chars.length +
    (charBytes "&sign=").length + 32 +
    (charBytes "&version=default&clientId=").length +
    request.clientId.chars.length + (charBytes "&timestamp=").length +
    timestamp.length + (charBytes "&resources=mqtt").length

/-- The room for the sign source: the texts and 40 characters. -/
def signRoom (request : Request) : Nat :=
  request.clientId.chars.length + request.productKey.chars.length +
    request.deviceName.chars.length + timestamp.length + 40

def alinkGetHttpsResp (httpsRespData : Buffer Byte 1024) (request : Request) :
    Option (Int × Buffer Byte 1024) :=
  if ¬ request.clientParamsAllocated then some (-1, httpsRespData)
  else if ¬ request.bufAllocated then some (0, httpsRespData)
  else if signRoom request <
      min (signSource request).length (SIGN_SOURCE_LEN - 1) + 1 then none
  else if SIGN_SOURCE_LEN < (signSource request).length then
    some (-2, httpsRespData)
  else if ¬ request.postBufAllocated then some (-2, httpsRespData)
  else if HTTP_POST_MAX_LEN ≤ postLength request then some (-3, httpsRespData)
  else if ¬ request.pbufferAllocated then none
  else do
    let (_, received) ← alinkHttpsPost httpsRespData request.attempts
    some (postLength request, received)

/-! ### The parser -/

/-- The type of an item, with the value that goes with it. -/
inductive ItemType where
  | string (valuestring : Text Byte)
  | number (valueint : BitVec 32)
  | other

/-- cJSON. -/
structure Cjson (Item : Type) where
  parse : List Byte → Option Item
  getObjectItem : Item → String → Option Item
  type : Item → ItemType

variable {Item : Type} (cjson : Cjson Item)

/-- `alink_cjson_get_iot_para`: its static buffer. -/
def alinkCjsonGetIotPara (memory : Bool) (cjsonExplain : List Byte)
    (getName : String) (paraGet : Buffer Byte 64) : Option (Buffer Byte 64) :=
  match if memory then cjson.parse cjsonExplain else none with
  | none => some paraGet
  | some jsonMessage =>
      match cjson.getObjectItem jsonMessage "data" with
      | none => some paraGet
      | some getData =>
          match cjson.getObjectItem getData getName with
          | none => some paraGet
          | some getIotId =>
              match cjson.type getIotId with
              | .string valuestring => writeText paraGet (valuestring.chars ++ [0])
              | _ => some paraGet

/-- `port` is an array of 6. -/
def printPort (paraGet : Buffer Byte 64) (valueint : BitVec 32) :
    Option (Buffer Byte 64) :=
  let printed := charBytes (toString valueint.toInt)
  if printed.length + 1 ≤ 6 then writeText paraGet (printed ++ [0]) else none

/-- `alink_cjson_get_mqtt_addr`: only `resources` is tested, and an item that is
missing there is dereferenced. -/
def alinkCjsonGetMqttAddr (memory : Bool) (cjsonExplain : List Byte)
    (getName : String) (paraGet : Buffer Byte 64) : Option (Buffer Byte 64) :=
  match if memory then cjson.parse cjsonExplain else none with
  | none => some paraGet
  | some jsonMessage =>
      match cjson.getObjectItem jsonMessage "data" with
      | none => some paraGet
      | some getData =>
          match cjson.getObjectItem getData "resources" with
          | none => some paraGet
          | some resourece =>
              match (cjson.getObjectItem resourece "mqtt").bind
                  fun mqtt => cjson.getObjectItem mqtt getName with
              | none => none
              | some addr =>
                  match cjson.type addr with
                  | .string valuestring =>
                      writeText paraGet (valuestring.chars ++ [0])
                  | .number valueint => printPort paraGet valueint
                  | .other => some paraGet

/-! ### The calls -/

/-- The arrays of `alink_https_set_device_info`. -/
structure Outputs where
  iotId : Buffer Byte 33
  iotToken : Buffer Byte 33
  host : Buffer Byte 65
  port : BitVec 16

structure DevcInfo where
  clientId : Buffer Byte 129
  userName : Buffer Byte 33
  password : Buffer Byte 41
  hostName : Buffer Byte 65
  port : BitVec 16

/-- The global response, the static buffers of the two getters, and
`xr_devc_info`. -/
structure State where
  httpsRespData : Buffer Byte 1024
  iotPara : Buffer Byte 64
  mqttAddr : Buffer Byte 64
  xrDevcInfo : DevcInfo

/-- The four reads of the response, one behind the other. -/
def readParas (state : State) (memory : Fin 4 → Bool) (outputs : Outputs) :
    Option (Outputs × State) := do
  let explain ← readText state.httpsRespData
  let iotPara ← alinkCjsonGetIotPara cjson (memory 0) explain "iotId"
    state.iotPara
  let dataGet ← readText iotPara
  let iotId ← writeText outputs.iotId (dataGet ++ [0])
  let iotPara ← alinkCjsonGetIotPara cjson (memory 1) explain "iotToken" iotPara
  let dataGet ← readText iotPara
  let iotToken ← writeText outputs.iotToken (dataGet ++ [0])
  let mqttAddr ← alinkCjsonGetMqttAddr cjson (memory 2) explain "host"
    state.mqttAddr
  let dataGet ← readText mqttAddr
  let host ← writeText outputs.host (dataGet ++ [0])
  let mqttAddr ← alinkCjsonGetMqttAddr cjson (memory 3) explain "port" mqttAddr
  let dataGet ← readText mqttAddr
  some
    ({ iotId := iotId
       iotToken := iotToken
       host := host
       port := BitVec.ofInt 16 (strtol dataGet) },
     { state with
       iotPara := iotPara
       mqttAddr := mqttAddr })

def httpsMqttParaGet (state : State) (request : Request) (outputs : Outputs) :
    Option (Int × Outputs × State) := do
  let (ret, received) ← alinkGetHttpsResp state.httpsRespData request
  let state := { state with httpsRespData := received }
  if ret < 0 then some (-1, outputs, state)
  else do
    let (outputs, state) ← readParas cjson state request.parserMemory outputs
    some (ret, outputs, state)

/-- `strncpy` with the length of the source: no zero is written. -/
def setFields (info : DevcInfo) (clientId : List Byte) (outputs : Outputs) :
    Option DevcInfo := do
  let clientId ← writeText info.clientId clientId
  let userName ← writeText info.userName (← readText outputs.iotId)
  let password ← writeText info.password (← readText outputs.iotToken)
  let hostName ← writeText info.hostName (← readText outputs.host)
  some
    { clientId := clientId
      userName := userName
      password := password
      hostName := hostName
      port := outputs.port }

def alinkHttpsSetDeviceInfo (state : State) (request : Request)
    (arrays : Outputs) : Option (Int × State) := do
  let (ret, outputs, state) ← httpsMqttParaGet cjson state request
    { arrays with port := 0 }
  if ret = -1 then some (-1, state)
  else do
    let info ← setFields state.xrDevcInfo request.clientId.chars outputs
    some (ret, { state with xrDevcInfo := info })

inductive Call where
  | paraGet (request : Request) (outputs : Outputs)
  | setDeviceInfo (request : Request) (arrays : Outputs)
  /-- Other code of the client sets `xr_devc_info`. -/
  | otherInfo (info : DevcInfo)

/-- A call without an outcome leaves nothing to go on from. -/
def step (state : State) : Call → State
  | .paraGet request outputs =>
      match httpsMqttParaGet cjson state request outputs with
      | some (_, _, next) => next
      | none => state
  | .setDeviceInfo request arrays =>
      match alinkHttpsSetDeviceInfo cjson state request arrays with
      | some (_, next) => next
      | none => state
  | .otherInfo info => { state with xrDevcInfo := info }

end XR872.Cloud
