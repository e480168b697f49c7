/-
Where the credentials come from.

A call whose exchange delivers a response, and whose response holds every item,
writes each buffer before it is read, so nothing that an earlier call left is
seen.
-/

import XR872.AtCmd.ValueText
import XR872.Cloud.Credentials

namespace XR872.Cloud

open AtCmd
open BitView
open Buffers
open Runs
open Texts

/-! ### What a response says -/

inductive Delivered : List Attempt → List Byte → Prop
  | received (attempt : Attempt) (later : List Attempt)
      (opened : attempt.opened = 0) (requested : attempt.requested = 0)
      (informed : attempt.informed = 0)
      (ok : attempt.statusCode = HTTP_STATUS_OK)
      (some_ : attempt.bodyLength ≠ 0 ∨ attempt.chunked)
      (complete : attempt.readAnswer = HTTP_CLIENT_EOS) :
      Delivered (attempt :: later) attempt.body
  | redirected (attempt : Attempt) (later : List Attempt) (body : List Byte)
      (opened : attempt.opened = 0) (requested : attempt.requested = 0)
      (informed : attempt.informed = 0)
      (moved : attempt.statusCode = HTTP_STATUS_OBJECT_MOVED ∨
        attempt.statusCode = HTTP_STATUS_OBJECT_MOVED_PERMANENTLY)
      (fits : attempt.redirectLength < HTTP_CLIENT_MAX_URL_LENGTH)
      (next : Delivered later body) : Delivered (attempt :: later) body

variable {Item : Type} (cjson : Cjson Item)

/-- The item at the end of a path from the document. -/
def Cjson.find (text : List Byte) (path : List String) : Option Item :=
  (cjson.parse text).bind fun document =>
    path.foldlM cjson.getObjectItem document

def StringAt (text : List Byte) (path : List String) (chars : List Byte) :
    Prop :=
  ∃ item value, cjson.find text path = some item ∧
    cjson.type item = .string value ∧ value.chars = chars

def PortItem : ItemType → Nat → Prop
  | .string value, port =>
      value.chars ≠ [] ∧ (∀ char ∈ value.chars, isDec char = true) ∧
        decDigits value.chars = port
  | .number valueint, port => valueint.toInt = port
  | .other, _ => False

structure Credentials where
  iotId : List Byte
  iotToken : List Byte
  host : List Byte
  port : Nat

structure Stated (text : List Byte) (credentials : Credentials) : Prop where
  iotId : StringAt cjson text ["data", "iotId"] credentials.iotId
  iotToken : StringAt cjson text ["data", "iotToken"] credentials.iotToken
  host : StringAt cjson text ["data", "resources", "mqtt", "host"]
    credentials.host
  port : ∃ item,
    cjson.find text ["data", "resources", "mqtt", "port"] = some item ∧
      PortItem (cjson.type item) credentials.port
  iotIdFits : credentials.iotId.length ≤ 32
  iotTokenFits : credentials.iotToken.length ≤ 32
  hostFits : credentials.host.length ≤ 64
  portFits : credentials.port ≤ 65535

/-- The exchange of this request succeeded with a response that holds these
values. -/
def Fresh (request : Request) (credentials : Credentials) : Prop :=
  ∃ body, Delivered request.attempts body ∧
    Stated cjson (untilZero body) credentials

def Outputs.Hold (outputs : Outputs) (credentials : Credentials) : Prop :=
  readText outputs.iotId = some credentials.iotId ∧
    readText outputs.iotToken = some credentials.iotToken ∧
    readText outputs.host = some credentials.host ∧
    outputs.port.toNat = credentials.port

def DevcInfo.Hold (info : DevcInfo) (clientId : List Byte)
    (credentials : Credentials) : Prop :=
  readText info.clientId = some clientId ∧
    readText info.userName = some credentials.iotId ∧
    readText info.password = some credentials.iotToken ∧
    readText info.hostName = some credentials.host ∧
    info.port.toNat = credentials.port

/-- The call has an outcome, and a success means the values of its own
response. -/
def Promise (state : State) : Call → Prop
  | .paraGet request outputs =>
      ∃ ret after next,
        httpsMqttParaGet cjson state request outputs = some (ret, after, next) ∧
          (0 ≤ ret → ∃ credentials, Fresh cjson request credentials ∧
            after.Hold credentials)
  | .setDeviceInfo request arrays =>
      ∃ ret next,
        alinkHttpsSetDeviceInfo cjson state request arrays =
            some (ret, next) ∧
          (0 ≤ ret → ∃ credentials, Fresh cjson request credentials ∧
            next.xrDevcInfo.Hold request.clientId.chars credentials)
  | .otherInfo _ => True

/-! ### When the promise is kept -/

/-- The request is given up before the exchange. -/
def Refused (request : Request) : Prop :=
  request.clientParamsAllocated = false ∨
    request.bufAllocated = true ∧
      (SIGN_SOURCE_LEN < (signSource request).length ∨
        request.postBufAllocated = false ∨
        HTTP_POST_MAX_LEN ≤ postLength request)

structure Sent (request : Request) : Prop where
  clientParams : request.clientParamsAllocated = true
  buf : request.bufAllocated = true
  postBuf : request.postBufAllocated = true
  pbuffer : request.pbufferAllocated = true
  source : (signSource request).length ≤ SIGN_SOURCE_LEN
  content : postLength request < HTTP_POST_MAX_LEN

def PortFits (text : List Byte) : Prop :=
  ∀ value, StringAt cjson text ["data", "resources", "mqtt", "port"] value →
    value.length < 64

/-- The exchange delivers a response that ends inside its buffer, the parser has
memory, and host and port fit the static buffer with their zero. -/
structure Answered (request : Request) (credentials : Credentials) : Prop where
  sent : Sent request
  memory : ∀ index, request.parserMemory index = true
  delivered : ∃ body, Delivered request.attempts body ∧
    (untilZero body).length < HTTP_RESP_MAX_LEN ∧
    Stated cjson (untilZero body) credentials ∧
    PortFits cjson (untilZero body)
  host : credentials.host.length < 64

structure Ended (info : DevcInfo) (clientId : List Byte)
    (credentials : Credentials) : Prop where
  clientId : info.clientId.cells[clientId.length]? = some 0
  userName : info.userName.cells[credentials.iotId.length]? = some 0
  password : info.password.cells[credentials.iotToken.length]? = some 0
  hostName : info.hostName.cells[credentials.host.length]? = some 0

def Clean (state : State) : Call → Prop
  | .paraGet request _ =>
      Refused request ∨ ∃ credentials, Answered cjson request credentials
  | .setDeviceInfo request _ =>
      Refused request ∨ ∃ credentials, Answered cjson request credentials ∧
        Ended state.xrDevcInfo request.clientId.chars credentials
  | .otherInfo _ => True

/-! ### The request -/

theorem signSource_fits (request : Request) :
    (signSource request).length < signRoom request := by
  unfold signSource signRoom
  simp only [List.length_append]
  have words : (charBytes "clientId").length + (charBytes "deviceName").length +
      (charBytes "productKey").length + (charBytes "timestamp").length = 37 := by
    decide
  omega

theorem resp_refused (httpsRespData : Buffer Byte 1024) (request : Request)
    (refused : Refused request) :
    ∃ ret, alinkGetHttpsResp httpsRespData request = some (ret, httpsRespData) ∧
      ret < 0 := by
  have fits := signSource_fits request
  unfold alinkGetHttpsResp
  by_cases params : request.clientParamsAllocated = true
  · rcases refused with none_ | ⟨buf, later⟩
    · rw [params] at none_
      cases none_
    · rw [if_neg (by rw [params]; simp), if_neg (by rw [buf]; simp),
        if_neg (by omega)]
      by_cases source : SIGN_SOURCE_LEN < (signSource request).length
      · rw [if_pos source]
        exact ⟨-2, rfl, by decide⟩
      · rw [if_neg source]
        by_cases post : request.postBufAllocated = true
        · rcases later with long | none_ | content
          · exact absurd long source
          · rw [post] at none_
            cases none_
          · rw [if_neg (by rw [post]; simp), if_pos content]
            exact ⟨-3, rfl, by decide⟩
        · rw [if_pos post]
          exact ⟨-2, rfl, by decide⟩
  · rw [if_pos params]
    exact ⟨-1, rfl, by decide⟩

/-! ### The exchange -/

theorem read_readBuffer (attempt : Attempt)
    (ends : (untilZero attempt.body).length < HTTP_RESP_MAX_LEN) :
    readText (readBuffer attempt) = some (untilZero attempt.body) := by
  have cells : (readBuffer attempt).cells = attempt.body ++
      List.replicate (HTTP_RESP_MAX_LEN - attempt.body.length) 0 := by
    unfold readBuffer
    rw [Buffer.store_cells, List.take_zero, List.nil_append, Nat.zero_add]
    change _ ++ (List.replicate _ _).drop _ = _
    rw [List.drop_replicate]
  unfold readText
  rw [cells, untilZero_append_zeros]
  apply if_pos
  by_cases member : (0 : Byte) ∈ attempt.body
  · exact List.mem_append_left _ member
  · rw [untilZero_of_noZero _ member] at ends
    exact List.mem_append_right _
      (List.mem_replicate.mpr ⟨by omega, rfl⟩)

theorem post_delivered (httpsRespData : Buffer Byte 1024)
    (attempts : List Attempt) (body : List Byte)
    (delivered : Delivered attempts body)
    (ends : (untilZero body).length < HTTP_RESP_MAX_LEN) :
    ∃ written, alinkHttpsPost httpsRespData attempts = some (0, written) ∧
      readText written = some (untilZero body) := by
  induction delivered with
  | received attempt later opened requested informed ok some_ complete =>
      obtain ⟨written, done, text⟩ := read_write httpsRespData
        (untilZero attempt.body) (zero_not_mem_untilZero _) ends
      refine ⟨written, ?_, text⟩
      unfold alinkHttpsPost
      rw [if_neg (not_not.mpr opened), if_neg (not_not.mpr requested),
        if_neg (not_not.mpr informed), if_neg (not_not.mpr ok), if_pos some_,
        if_neg (by rw [complete]; decide), if_pos complete,
        read_readBuffer attempt ends]
      change (writeText httpsRespData _).bind _ = _
      rw [done]
      rfl
  | redirected attempt later body opened requested informed moved fits next
      ih =>
      obtain ⟨written, done, text⟩ := ih ends
      refine ⟨written, ?_, text⟩
      unfold alinkHttpsPost
      rw [if_neg (not_not.mpr opened), if_neg (not_not.mpr requested),
        if_neg (not_not.mpr informed), if_pos _, if_pos moved, if_pos fits]
      · exact done
      · rcases moved with found | permanently
        · rw [found]
          decide
        · rw [permanently]
          decide

theorem resp_answered (httpsRespData : Buffer Byte 1024) (request : Request)
    (sent : Sent request) (body : List Byte)
    (delivered : Delivered request.attempts body)
    (ends : (untilZero body).length < HTTP_RESP_MAX_LEN) :
    ∃ received, alinkGetHttpsResp httpsRespData request =
        some ((postLength request : Int), received) ∧
      readText received = some (untilZero body) := by
  have fits := signSource_fits request
  have source := sent.source
  have content := sent.content
  obtain ⟨received, done, text⟩ := post_delivered httpsRespData
    request.attempts body delivered ends
  refine ⟨received, ?_, text⟩
  unfold alinkGetHttpsResp
  rw [if_neg (by rw [sent.clientParams]; simp),
    if_neg (by rw [sent.buf]; simp), if_neg (by omega), if_neg (by omega),
    if_neg (by rw [sent.postBuf]; simp), if_neg (by omega),
    if_neg (by rw [sent.pbuffer]; simp), done]
  rfl

/-! ### The parser -/

theorem find_data (text : List Byte) (path : List String) (item : Item)
    (found : cjson.find text ("data" :: path) = some item) :
    ∃ document data, cjson.parse text = some document ∧
      cjson.getObjectItem document "data" = some data ∧
      path.foldlM cjson.getObjectItem data = some item := by
  obtain ⟨document, parsed, below⟩ := Option.bind_eq_some_iff.mp found
  obtain ⟨data, inside, rest⟩ := Option.bind_eq_some_iff.mp below
  exact ⟨document, data, parsed, inside, rest⟩

theorem find_last (data item : Item) (name : String)
    (found : [name].foldlM cjson.getObjectItem data = some item) :
    cjson.getObjectItem data name = some item := by
  simpa using found

theorem iotPara_string (text : List Byte) (name : String)
    (paraGet : Buffer Byte 64) (chars : List Byte)
    (stated : StringAt cjson text ["data", name] chars)
    (fits : chars.length < 64) :
    ∃ written, alinkCjsonGetIotPara cjson true text name paraGet =
        some written ∧ readText written = some chars := by
  obtain ⟨item, value, found, type, rfl⟩ := stated
  obtain ⟨document, data, parsed, inside, below⟩ :=
    find_data cjson text [name] item found
  have last := find_last cjson data item name below
  obtain ⟨written, done, holds⟩ :=
    read_write paraGet value.chars value.noZero fits
  refine ⟨written, ?_, holds⟩
  unfold alinkCjsonGetIotPara
  rw [if_pos rfl]
  simp only [parsed, inside, last, type]
  exact done

theorem find_mqtt (text : List Byte) (name : String) (item : Item)
    (found : cjson.find text ["data", "resources", "mqtt", name] =
      some item) :
    ∃ document data resourece, cjson.parse text = some document ∧
      cjson.getObjectItem document "data" = some data ∧
      cjson.getObjectItem data "resources" = some resourece ∧
      ((cjson.getObjectItem resourece "mqtt").bind
        fun mqtt => cjson.getObjectItem mqtt name) = some item := by
  obtain ⟨document, data, parsed, inside, below⟩ :=
    find_data cjson text ["resources", "mqtt", name] item found
  obtain ⟨resourece, resources, below⟩ := Option.bind_eq_some_iff.mp below
  obtain ⟨mqtt, mqttFound, below⟩ := Option.bind_eq_some_iff.mp below
  refine ⟨document, data, resourece, parsed, inside, resources, ?_⟩
  rw [mqttFound]
  exact find_last cjson mqtt item name below

theorem mqttAddr_string (text : List Byte) (name : String)
    (paraGet : Buffer Byte 64) (chars : List Byte)
    (stated : StringAt cjson text ["data", "resources", "mqtt", name] chars)
    (fits : chars.length < 64) :
    ∃ written, alinkCjsonGetMqttAddr cjson true text name paraGet =
        some written ∧ readText written = some chars := by
  obtain ⟨item, value, found, type, rfl⟩ := stated
  obtain ⟨document, data, resourece, parsed, inside, resources, last⟩ :=
    find_mqtt cjson text name item found
  obtain ⟨written, done, holds⟩ :=
    read_write paraGet value.chars value.noZero fits
  refine ⟨written, ?_, holds⟩
  unfold alinkCjsonGetMqttAddr
  rw [if_pos rfl]
  simp only [parsed, inside, resources, last, type]
  exact done

/-! ### The port -/

theorem isDec_facts : ∀ char : Byte, isDec char = true →
    isSpace char = false ∧ char ≠ 0x2d#8 ∧ char ≠ 0x2b#8 ∧ char ≠ 0 := by
  decide

/-- `atoi` of decimal digits. -/
theorem strtol_digits (text : List Byte) (some_ : text ≠ [])
    (all : ∀ char ∈ text, isDec char = true)
    (small : decDigits text ≤ 65535) : strtol text = decDigits text := by
  cases text with
  | nil => exact absurd rfl some_
  | cons char rest =>
      obtain ⟨solid, noMinus, noPlus, _⟩ :=
        isDec_facts char (all char List.mem_cons_self)
      unfold strtol
      rw [List.dropWhile_cons_of_neg (by rw [solid]; exact Bool.false_ne_true)]
      dsimp only
      rw [if_neg noMinus, if_neg noPlus]
      omega

theorem decDigits_decText (num : Nat) : decDigits (decText num) = num := by
  have all : (decText num).takeWhile isDec = decText num := by
    rw [List.takeWhile_eq_self_iff]
    exact fun char member => (decText_digits num char member).1
  unfold decDigits
  rw [all, decText_eq, foldl_digits _ _ fun char member =>
      Nat.isDigit_of_mem_toDigits (by decide) (by decide) member,
    Nat.ofDigitChars_ten_toDigits]

/-- A port in range, as a number or as digits, leaves digits of it in the
buffer. -/
theorem mqttAddr_port (text : List Byte) (paraGet : Buffer Byte 64)
    (item : Item) (port : Nat)
    (found : cjson.find text ["data", "resources", "mqtt", "port"] =
      some item)
    (stated : PortItem (cjson.type item) port) (inRange : port ≤ 65535)
    (fits : PortFits cjson text) :
    ∃ written digits,
      alinkCjsonGetMqttAddr cjson true text "port" paraGet = some written ∧
        readText written = some digits ∧ strtol digits = port := by
  cases type : cjson.type item with
  | string value =>
      have here : StringAt cjson text ["data", "resources", "mqtt", "port"]
          value.chars := ⟨item, value, found, type, rfl⟩
      obtain ⟨written, done, holds⟩ := mqttAddr_string cjson text "port" paraGet
        value.chars here (fits value.chars here)
      rw [type] at stated
      obtain ⟨some_, all, rfl⟩ := stated
      exact ⟨written, value.chars, done, holds,
        strtol_digits value.chars some_ all inRange⟩
  | number valueint =>
      obtain ⟨document, data, resourece, parsed, inside, resources, last⟩ :=
        find_mqtt cjson text "port" item found
      rw [type] at stated
      have printed : charBytes (toString valueint.toInt) = decText port := by
        rw [(stated : valueint.toInt = port)]
        rfl
      have digits := fun char member => (decText_digits port char member).1
      have noZero : (0 : Byte) ∉ decText port := fun member =>
        (isDec_facts 0 (digits 0 member)).2.2.2 rfl
      have short := decText_length_le port 5 (by decide) (by omega)
      have some_ : decText port ≠ [] :=
        List.ne_nil_of_length_pos (decText_length_pos port)
      obtain ⟨written, done, holds⟩ :=
        read_write paraGet (decText port) noZero (by omega)
      refine ⟨written, decText port, ?_, holds, ?_⟩
      · unfold alinkCjsonGetMqttAddr
        rw [if_pos rfl]
        simp only [parsed, inside, resources, last, type]
        unfold printPort
        rw [printed]
        exact (if_pos (by omega)).trans done
      · rw [strtol_digits (decText port) some_ digits
          (by rw [decDigits_decText]; exact inRange), decDigits_decText]
  | other =>
      rw [type] at stated
      cases stated

/-! ### The calls -/

theorem readParas_stated (state : State) (memory : Fin 4 → Bool)
    (outputs : Outputs) (text : List Byte) (credentials : Credentials)
    (held : readText state.httpsRespData = some text)
    (all : ∀ index, memory index = true)
    (stated : Stated cjson text credentials) (portFits : PortFits cjson text)
    (host : credentials.host.length < 64) :
    ∃ after next, readParas cjson state memory outputs = some (after, next) ∧
      next.xrDevcInfo = state.xrDevcInfo ∧ after.Hold credentials := by
  have idFits := stated.iotIdFits
  have tokenFits := stated.iotTokenFits
  have noZero (path : List String) (chars : List Byte)
      (string : StringAt cjson text path chars) : (0 : Byte) ∉ chars := by
    obtain ⟨item, value, found, type, rfl⟩ := string
    exact value.noZero
  obtain ⟨idPara, idGot, idRead⟩ := iotPara_string cjson text "iotId"
    state.iotPara credentials.iotId stated.iotId (by omega)
  obtain ⟨iotId, idDone, idHolds⟩ := read_write outputs.iotId credentials.iotId
    (noZero _ _ stated.iotId) (by omega)
  obtain ⟨tokenPara, tokenGot, tokenRead⟩ := iotPara_string cjson text "iotToken"
    idPara credentials.iotToken stated.iotToken (by omega)
  obtain ⟨iotToken, tokenDone, tokenHolds⟩ := read_write outputs.iotToken
    credentials.iotToken (noZero _ _ stated.iotToken) (by omega)
  obtain ⟨hostAddr, hostGot, hostRead⟩ := mqttAddr_string cjson text "host"
    state.mqttAddr credentials.host stated.host host
  obtain ⟨hostArray, hostDone, hostHolds⟩ := read_write outputs.host
    credentials.host (noZero _ _ stated.host) (by omega)
  obtain ⟨item, found, isPort⟩ := stated.port
  obtain ⟨portAddr, digits, portGot, portRead, value⟩ := mqttAddr_port cjson text
    hostAddr item credentials.port found isPort stated.portFits portFits
  refine
    ⟨{ iotId := iotId
       iotToken := iotToken
       host := hostArray
       port := BitVec.ofInt 16 (strtol digits) },
     { state with
       iotPara := tokenPara
       mqttAddr := portAddr }, ?_, rfl, idHolds, tokenHolds, hostHolds, ?_⟩
  · unfold readParas
    simp only [held, all, idGot, idRead, idDone, tokenGot, tokenRead, tokenDone,
      hostGot, hostRead, hostDone, portGot, portRead, Option.bind_eq_bind,
      Option.bind_some]
  · have inRange := stated.portFits
    change (BitVec.ofInt 16 (strtol digits)).toNat = credentials.port
    rw [value, BitVec.toNat_ofInt]
    omega

theorem paraGet_refused (state : State) (request : Request) (outputs : Outputs)
    (refused : Refused request) :
    httpsMqttParaGet cjson state request outputs =
      some (-1, outputs, state) := by
  obtain ⟨ret, kept, negative⟩ :=
    resp_refused state.httpsRespData request refused
  unfold httpsMqttParaGet
  rw [kept]
  exact if_pos negative

theorem paraGet_answered (state : State) (request : Request) (outputs : Outputs)
    (credentials : Credentials) (answered : Answered cjson request credentials) :
    ∃ ret after next,
      httpsMqttParaGet cjson state request outputs = some (ret, after, next) ∧
        0 ≤ ret ∧ next.xrDevcInfo = state.xrDevcInfo ∧
        Fresh cjson request credentials ∧ after.Hold credentials := by
  obtain ⟨body, delivered, ends, stated, portFits⟩ := answered.delivered
  obtain ⟨received, got, text⟩ := resp_answered state.httpsRespData request
    answered.sent body delivered ends
  obtain ⟨after, next, read, info, hold⟩ := readParas_stated cjson
    { state with httpsRespData := received } request.parserMemory outputs
    (untilZero body) credentials text answered.memory stated portFits
    answered.host
  have natural : (0 : Int) ≤ postLength request := Int.natCast_nonneg _
  refine ⟨postLength request, after, next, ?_, natural, info,
    ⟨body, delivered, stated⟩, hold⟩
  unfold httpsMqttParaGet
  simp only [got, Option.bind_eq_bind, Option.bind_some]
  rw [if_neg (Int.not_lt.mpr natural), read]
  rfl

theorem setFields_ended (info : DevcInfo) (clientId : Text Byte)
    (outputs : Outputs) (credentials : Credentials)
    (hold : outputs.Hold credentials)
    (ended : Ended info clientId.chars credentials) :
    ∃ after, setFields info clientId.chars outputs = some after ∧
      after.Hold clientId.chars credentials := by
  obtain ⟨iotId, iotToken, host, port⟩ := hold
  have within {n : Nat} (buffer : Buffer Byte n) (index : Nat)
      (zero : buffer.cells[index]? = some 0) : index < n := by
    have inside := (List.getElem?_eq_some_iff.mp zero).1
    rw [buffer.size] at inside
    exact inside
  have noZero {n : Nat} (buffer : Buffer Byte n) (chars : List Byte)
      (held : readText buffer = some chars) : (0 : Byte) ∉ chars := by
    unfold readText at held
    split at held
    · rw [← Option.some.inj held]
      exact zero_not_mem_untilZero _
    · cases held
  obtain ⟨clientIdAfter, clientDone, clientHolds⟩ := read_write_bare info.clientId
    clientId.chars clientId.noZero (within _ _ ended.clientId) ended.clientId
  obtain ⟨userName, userDone, userHolds⟩ := read_write_bare info.userName
    credentials.iotId (noZero _ _ iotId) (within _ _ ended.userName)
    ended.userName
  obtain ⟨password, passwordDone, passwordHolds⟩ := read_write_bare info.password
    credentials.iotToken (noZero _ _ iotToken) (within _ _ ended.password)
    ended.password
  obtain ⟨hostName, hostDone, hostHolds⟩ := read_write_bare info.hostName
    credentials.host (noZero _ _ host) (within _ _ ended.hostName)
    ended.hostName
  refine
    ⟨{ clientId := clientIdAfter
       userName := userName
       password := password
       hostName := hostName
       port := outputs.port }, ?_, clientHolds, userHolds, passwordHolds,
      hostHolds, port⟩
  unfold setFields
  simp only [clientDone, iotId, userDone, iotToken, passwordDone, host, hostDone,
    Option.bind_eq_bind, Option.bind_some]

theorem promise_of_clean (state : State) (call : Call)
    (clean : Clean cjson state call) : Promise cjson state call := by
  cases call with
  | paraGet request outputs =>
      rcases clean with refused | ⟨credentials, answered⟩
      · refine ⟨-1, outputs, state,
          paraGet_refused cjson state request outputs refused, ?_⟩
        intro success
        cases success
      · obtain ⟨ret, after, next, done, _, _, fresh, hold⟩ :=
          paraGet_answered cjson state request outputs credentials answered
        exact ⟨ret, after, next, done, fun _ => ⟨credentials, fresh, hold⟩⟩
  | setDeviceInfo request arrays =>
      rcases clean with refused | ⟨credentials, answered, ended⟩
      · refine ⟨-1, state, ?_, fun success => nomatch success⟩
        unfold alinkHttpsSetDeviceInfo
        rw [paraGet_refused cjson state request _ refused]
        simp only [Option.bind_eq_bind, Option.bind_some, if_true]
      · obtain ⟨ret, after, next, done, natural, info, fresh, hold⟩ :=
          paraGet_answered cjson state request { arrays with port := 0 }
            credentials answered
        rw [← info] at ended
        obtain ⟨fields, set_, holds⟩ := setFields_ended next.xrDevcInfo
          request.clientId after credentials hold ended
        refine ⟨ret, { next with xrDevcInfo := fields }, ?_,
          fun _ => ⟨credentials, fresh, holds⟩⟩
        unfold alinkHttpsSetDeviceInfo
        simp only [done, Option.bind_eq_bind, Option.bind_some]
        rw [if_neg (by omega), set_]
        rfl
  | otherInfo info => trivial

/-- In a history whose calls are clean, a success means the values of the
response to this call, from whatever the buffers held at the start. -/
theorem history_current (start : State) (calls : List Call)
    (clean : Along (step cjson) (Clean cjson) start calls) :
    Along (step cjson) (Promise cjson) start calls :=
  along_of_along (Promise cjson) (Clean cjson) (fun _ => True)
    (fun _ _ _ _ => trivial)
    (fun state call _ here => promise_of_clean cjson state call here) start
    trivial calls clean

/-! ### A response, and none -/

inductive SampleItem where
  | object (items : List (String × SampleItem))
  | value (type : ItemType)

def sampleBody : List Byte :=
  charBytes "\x7b\"data\":\x7b\"iotId\":\"a\",\"iotToken\":\"b\"," ++
    charBytes "\"resources\":\x7b\"mqtt\":\x7b\"host\":\"c\"," ++
    charBytes "\"port\":1883\x7d\x7d\x7d\x7d"

def sampleDocument : SampleItem :=
  .object
    [("data", .object
      [("iotId", .value (.string (textOf (charBytes "a")))),
       ("iotToken", .value (.string (textOf (charBytes "b")))),
       ("resources", .object
         [("mqtt", .object
           [("host", .value (.string (textOf (charBytes "c")))),
            ("port", .value (.number 1883#32))])])])]

/-- cJSON on this body, and on no other text. -/
def sampleCjson : Cjson SampleItem :=
  { parse := fun text =>
      if text = sampleBody then some sampleDocument else none
    getObjectItem := fun item name =>
      match item with
      | .object items => items.lookup name
      | .value _ => none
    type := fun item =>
      match item with
      | .object _ => .other
      | .value type => type }

def sampleAttempt : Attempt :=
  { opened := 0
    requested := 0
    informed := 0
    statusCode := 200
    redirectLength := 0
    bodyLength := sampleBody.length
    chunked := false
    readAnswer := 1000
    body := sampleBody
    bodyFits := Nat.le_of_ble_eq_true rfl }

def sampleRequest (attempts : List Attempt) : Request :=
  { productKey := textOf (charBytes "k")
    deviceName := textOf (charBytes "d")
    clientId := textOf (charBytes "i")
    clientParamsAllocated := true
    bufAllocated := true
    postBufAllocated := true
    pbufferAllocated := true
    attempts := attempts
    parserMemory := fun _ => true }

def noOutputs : Outputs :=
  { iotId := Buffer.fill 33 0
    iotToken := Buffer.fill 33 0
    host := Buffer.fill 65 0
    port := 0 }

def bootState : State :=
  { httpsRespData := Buffer.fill 1024 0
    iotPara := Buffer.fill 64 0
    mqttAddr := Buffer.fill 64 0
    xrDevcInfo :=
      { clientId := Buffer.fill 129 0
        userName := Buffer.fill 33 0
        password := Buffer.fill 41 0
        hostName := Buffer.fill 65 0
        port := 0 } }

theorem sample_stated : Stated sampleCjson (untilZero sampleBody)
    { iotId := charBytes "a"
      iotToken := charBytes "b"
      host := charBytes "c"
      port := 1883 } where
  iotId := ⟨_, _, rfl, rfl, rfl⟩
  iotToken := ⟨_, _, rfl, rfl, rfl⟩
  host := ⟨_, _, rfl, rfl, rfl⟩
  port := ⟨_, rfl, rfl⟩
  iotIdFits := by decide
  iotTokenFits := by decide
  hostFits := by decide
  portFits := by decide

theorem sample_answered : Answered sampleCjson (sampleRequest [sampleAttempt])
    { iotId := charBytes "a"
      iotToken := charBytes "b"
      host := charBytes "c"
      port := 1883 } where
  sent :=
    { clientParams := rfl
      buf := rfl
      postBuf := rfl
      pbuffer := rfl
      source := by decide
      content := by decide }
  memory _ := rfl
  delivered := by
    refine ⟨sampleBody, .received sampleAttempt [] rfl rfl rfl rfl
      (Or.inl (by decide)) rfl, by decide, sample_stated, ?_⟩
    rintro value ⟨item, text, found, type, same⟩
    cases found
    cases type
  host := by decide

/-- A response, the fields set from it, and a request that is refused. -/
theorem response_current :
    Along (step sampleCjson) (Promise sampleCjson) bootState
      [.setDeviceInfo (sampleRequest [sampleAttempt]) noOutputs,
       .paraGet
        { sampleRequest [] with clientParamsAllocated := false } noOutputs] :=
  history_current sampleCjson bootState
    [.setDeviceInfo (sampleRequest [sampleAttempt]) noOutputs,
     .paraGet
      { sampleRequest [] with clientParamsAllocated := false } noOutputs]
    ⟨Or.inr ⟨_, sample_answered,
      { clientId := by decide
        userName := by decide
        password := by decide
        hostName := by decide }⟩, Or.inl (Or.inl rfl), trivial⟩

/-- With no connection the call reports success, and empty texts. -/
theorem noResponse_reported :
    ¬ ∀ calls, Along (step sampleCjson) (Promise sampleCjson) bootState
      calls := by
  intro all
  obtain ⟨⟨ret, after, next, done, hold⟩, _⟩ :=
    all [.paraGet (sampleRequest []) noOutputs]
  have success : (httpsMqttParaGet sampleCjson bootState (sampleRequest [])
      noOutputs).map (fun result => decide (0 ≤ result.1)) = some true := by
    decide +kernel
  rw [done] at success
  have natural := of_decide_eq_true (Option.some.inj success)
  obtain ⟨credentials, ⟨body, delivered, _⟩, _⟩ := hold natural
  cases delivered

end XR872.Cloud
