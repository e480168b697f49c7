/-
The packet that opens an MQTT session.
-/

import XR872.Mqtt.Publish

namespace XR872.Mqtt

open BitView
open Memories

/-- The bits of `MQTTConnectFlags`. -/
structure MQTTConnectFlags where
  username : BitVec 1
  password : BitVec 1
  willRetain : BitVec 1
  willQoS : BitVec 2
  will : BitVec 1
  cleansession : BitVec 1
deriving DecidableEq

namespace MQTTConnectFlags

def all (flags : MQTTConnectFlags) : Byte :=
  flags.username ++ flags.password ++ flags.willRetain ++ flags.willQoS ++
    flags.will ++ flags.cleansession ++ 0#1

def ofAll (byte : Byte) : MQTTConnectFlags where
  username := byte.extractLsb' 7 1
  password := byte.extractLsb' 6 1
  willRetain := byte.extractLsb' 5 1
  willQoS := byte.extractLsb' 3 2
  will := byte.extractLsb' 2 1
  cleansession := byte.extractLsb' 1 1

@[simp] theorem ofAll_all (flags : MQTTConnectFlags) :
    ofAll flags.all = flags := by
  have every : ∀ (username password willRetain : BitVec 1) (willQoS : BitVec 2)
      (will cleansession : BitVec 1),
      ofAll (MQTTConnectFlags.mk username password willRetain willQoS will
          cleansession).all =
        ⟨username, password, willRetain, willQoS, will, cleansession⟩ := by
    decide +kernel
  exact every flags.username flags.password flags.willRetain flags.willQoS
    flags.will flags.cleansession

end MQTTConnectFlags

structure MQTTPacketWillOptions where
  topicName : MQTTString
  message : MQTTString
  retained : Byte
  qos : Byte
deriving DecidableEq

structure MQTTPacketConnectData where
  mqttVersion : Byte
  clientID : MQTTString
  keepAliveInterval : BitVec 16
  cleansession : Byte
  willFlag : Byte
  will : MQTTPacketWillOptions
  username : MQTTString
  password : MQTTString
deriving DecidableEq

/-- `cstring || lenstring.data`. -/
def MQTTString.Present (string : MQTTString) : Prop :=
  string.cstring.isSome ∨ string.lenstring.isSome

instance (string : MQTTString) : Decidable string.Present := by
  unfold MQTTString.Present
  infer_instance

/-- `"MQTT"`. -/
def protocolMQTT : List Byte := [77#8, 81#8, 84#8, 84#8]

/-- `"MQIsdp"`. -/
def protocolMQIsdp : List Byte := [77#8, 81#8, 73#8, 115#8, 100#8, 112#8]

/-! ### Writing -/

def mqttSerializeConnectLength (options : MQTTPacketConnectData) : Nat :=
  let len :=
    if options.mqttVersion = 3 then 12
    else if options.mqttVersion = 4 then 10
    else 0
  let len := len + (mqttStrlen options.clientID + 2)
  let len :=
    if options.willFlag ≠ 0 then
      len + (mqttStrlen options.will.topicName + 2 +
        mqttStrlen options.will.message + 2)
    else len
  let len :=
    if options.username.Present then len + (mqttStrlen options.username + 2)
    else len
  if options.password.Present then len + (mqttStrlen options.password + 2)
  else len

def connectFlags (options : MQTTPacketConnectData) : MQTTConnectFlags where
  username := if options.username.Present then 1#1 else 0#1
  password := if options.password.Present then 1#1 else 0#1
  willRetain :=
    if options.willFlag ≠ 0 then options.will.retained.setWidth 1 else 0#1
  willQoS := if options.willFlag ≠ 0 then options.will.qos.setWidth 2 else 0#2
  will := if options.willFlag ≠ 0 then 1#1 else 0#1
  cleansession := options.cleansession.setWidth 1

def mqttSerializeConnect (memory : Nat → Byte) (buf buflen : Nat)
    (options : MQTTPacketConnectData) : Int × (Nat → Byte) :=
  let len := mqttSerializeConnectLength options
  if buflen < mqttPacketLen len then (MQTTPACKET_BUFFER_TOO_SHORT, memory)
  else
    let header : MQTTHeader :=
      { type := CONNECT, dup := 0#1, qos := 0#2, retain := 0#1 }
    let out := writeChar ⟨memory, buf⟩ header.byte
    let out := mqttPacketEncode out len
    let out :=
      if options.mqttVersion = 4 then writeChar (writeCString out protocolMQTT) 4
      else writeChar (writeCString out protocolMQIsdp) 3
    let flags := connectFlags options
    let out := writeChar out flags.all
    let out := writeInt out options.keepAliveInterval.toNat
    let out := writeMQTTString out options.clientID
    let out :=
      if options.willFlag ≠ 0 then
        writeMQTTString (writeMQTTString out options.will.topicName)
          options.will.message
      else out
    let out :=
      if flags.username = 1#1 then writeMQTTString out options.username else out
    let out :=
      if flags.password = 1#1 then writeMQTTString out options.password else out
    (out.ptr - buf, out.memory)

/-! ### Reading -/

/-- A name that is cut short also passes. -/
def mqttPacketCheckVersion (memory : Nat → Byte) (protocol : Span)
    (version : Byte) : Bool :=
  if version = 3 ∧
      load memory protocol.data (min 6 protocol.len) =
        protocolMQIsdp.take (min 6 protocol.len) then true
  else if version = 4 ∧
      load memory protocol.data (min 4 protocol.len) =
        protocolMQTT.take (min 4 protocol.len) then true
  else false

structure ConnectedWill where
  qos : Byte
  retained : Byte
  topicName : Span
  message : Span
deriving DecidableEq

/-- What `MQTTDeserialize_connect` sets. -/
structure Connected where
  cleansession : Byte
  keepAliveInterval : BitVec 16
  clientID : Span
  will : Option ConnectedWill
  username : Option Span
  password : Option Span
deriving DecidableEq

def readWill (memory : Nat → Byte) (flags : MQTTConnectFlags)
    (curdata enddata : Nat) : Option (Option ConnectedWill × Nat) :=
  if flags.will = 1#1 then do
    let (topicName, curdata) ← readMQTTLenString memory curdata enddata
    let (message, curdata) ← readMQTTLenString memory curdata enddata
    return (some
      { qos := flags.willQoS.setWidth 8, retained := flags.willRetain.setWidth 8,
        topicName := topicName, message := message }, curdata)
  else some (none, curdata)

/-- A name or a word that is announced has to have a character. -/
def readCredential (memory : Nat → Byte) (announced : BitVec 1)
    (curdata enddata : Nat) : Option (Option Span × Nat) :=
  if announced = 1#1 then
    if enddata < curdata + 3 then none
    else do
      let (string, curdata) ← readMQTTLenString memory curdata enddata
      return (some string, curdata)
  else some (none, curdata)

def readCredentials (memory : Nat → Byte) (flags : MQTTConnectFlags)
    (curdata enddata : Nat) : Option (Option Span × Option Span) :=
  if flags.username = 1#1 then do
    let (username, curdata) ←
      readCredential memory flags.username curdata enddata
    let (password, _) ← readCredential memory flags.password curdata enddata
    return (username, password)
  else if flags.password = 1#1 then none
  else some (none, none)

/-- `none` is the result zero. -/
def mqttDeserializeConnect (memory : Nat → Byte) (buf len : Nat) :
    Option Connected :=
  let enddata := buf + len
  let header := MQTTHeader.ofByte (memory buf)
  if header.type ≠ CONNECT then none
  else do
    let curdata := buf + 1 + (mqttPacketDecodeBuf memory (buf + 1)).1
    let (protocol, curdata) ← readMQTTLenString memory curdata enddata
    if enddata < curdata then none
    else
      let version := memory curdata
      if mqttPacketCheckVersion memory protocol version then do
        let flags := MQTTConnectFlags.ofAll (memory (curdata + 1))
        let keepAliveInterval := readInt memory (curdata + 2)
        let (clientID, curdata) ←
          readMQTTLenString memory (curdata + 4) enddata
        let (will, curdata) ← readWill memory flags curdata enddata
        let (username, password) ←
          readCredentials memory flags curdata enddata
        return {
          cleansession := flags.cleansession.setWidth 8
          keepAliveInterval := BitVec.ofNat 16 keepAliveInterval
          clientID := clientID
          will := will
          username := username
          password := password }
      else none

/-! ### What is written -/

namespace MQTTPacketConnectData

/-- Options of a known version, each string in one form and short enough for its
length field. -/
structure WellGiven (options : MQTTPacketConnectData) : Prop where
  version : options.mqttVersion = 3 ∨ options.mqttVersion = 4
  oneForm : ∀ string ∈ [options.clientID, options.will.topicName,
    options.will.message, options.username, options.password], string.OneForm
  short : ∀ string ∈ [options.clientID, options.will.topicName,
    options.will.message, options.username, options.password],
    string.text.length < 65536

end MQTTPacketConnectData

def connectHeader : MQTTHeader :=
  { type := CONNECT, dup := 0#1, qos := 0#2, retain := 0#1 }

def protocolName (version : Byte) : List Byte :=
  if version = 4 then protocolMQTT else protocolMQIsdp

def willBytes (options : MQTTPacketConnectData) : List Byte :=
  if options.willFlag ≠ 0 then
    stringBytes options.will.topicName.text ++
      stringBytes options.will.message.text
  else []

def givenBytes (string : MQTTString) : List Byte :=
  if string.Present then stringBytes string.text else []

def connectRest (options : MQTTPacketConnectData) : List Byte :=
  stringBytes (protocolName options.mqttVersion) ++
    ([options.mqttVersion, (connectFlags options).all] ++
      (intBytes options.keepAliveInterval.toNat ++
        (stringBytes options.clientID.text ++
          (willBytes options ++
            (givenBytes options.username ++ givenBytes options.password)))))

theorem announced_iff (string : MQTTString) :
    (if string.Present then 1#1 else 0#1) = 1#1 ↔ string.Present := by
  by_cases present : string.Present
  · rw [if_pos present]
    exact iff_of_true rfl present
  · rw [if_neg present]
    exact iff_of_false (by decide) present

theorem length_givenBytes (string : MQTTString) (oneForm : string.OneForm) :
    (givenBytes string).length =
      if string.Present then mqttStrlen string + 2 else 0 := by
  unfold givenBytes
  by_cases present : string.Present
  · rw [if_pos present, if_pos present, length_stringBytes,
      mqttStrlen_eq string oneForm, Nat.add_comm]
  · rw [if_neg present, if_neg present, List.length_nil]

theorem length_connectRest (options : MQTTPacketConnectData)
    (given : options.WellGiven) :
    mqttSerializeConnectLength options = (connectRest options).length := by
  obtain ⟨version, oneForm, _⟩ := given
  simp only [List.forall_mem_cons] at oneForm
  obtain ⟨client, topic, message, username, password, _⟩ := oneForm
  have name : (protocolName options.mqttVersion).length + 6 =
      if options.mqttVersion = 3 then 12
      else if options.mqttVersion = 4 then 10 else 0 := by
    cases version with
    | inl three =>
        rw [three]
        rfl
    | inr four =>
        rw [four]
        rfl
  have will : (willBytes options).length =
      if options.willFlag ≠ 0 then
        mqttStrlen options.will.topicName + 2 +
          mqttStrlen options.will.message + 2
      else 0 := by
    unfold willBytes
    rw [mqttStrlen_eq _ topic, mqttStrlen_eq _ message]
    split
    · rw [List.length_append, length_stringBytes, length_stringBytes]
      omega
    · rfl
  unfold mqttSerializeConnectLength connectRest
  simp only [List.length_append, length_stringBytes, length_intBytes, will,
    length_givenBytes _ username, length_givenBytes _ password,
    mqttStrlen_eq _ client, List.length_cons, List.length_nil]
  rw [← name]
  split <;> split <;> split <;> omega

theorem length_givenBytes_le (string : MQTTString)
    (short : string.text.length < 65536) :
    (givenBytes string).length ≤ 65537 := by
  unfold givenBytes
  split
  · rw [length_stringBytes]
    omega
  · exact Nat.zero_le _

/-- Strings with a length of two bytes make a packet whose length four bytes
hold. -/
theorem connectRest_short (options : MQTTPacketConnectData)
    (given : options.WellGiven) : (connectRest options).length < 128 ^ 4 := by
  have short := given.short
  simp only [List.forall_mem_cons] at short
  obtain ⟨client, topic, message, username, password, _⟩ := short
  have name : (protocolName options.mqttVersion).length ≤ 6 := by
    unfold protocolName
    split <;> decide
  have will : (willBytes options).length ≤ 131074 := by
    unfold willBytes
    split
    · rw [List.length_append, length_stringBytes, length_stringBytes]
      omega
    · exact Nat.zero_le _
  have user := length_givenBytes_le options.username username
  have word := length_givenBytes_le options.password password
  unfold connectRest
  simp only [List.length_append, length_stringBytes, length_intBytes,
    List.length_cons, List.length_nil]
  omega

theorem mqttSerializeConnect_eq (memory : Nat → Byte) (buf buflen : Nat)
    (options : MQTTPacketConnectData) (given : options.WellGiven)
    (fits : (connectRest options).length < 128 ^ 4) :
    mqttSerializeConnect memory buf buflen options =
      let packet := packetBytes connectHeader (connectRest options)
      if buflen < mqttPacketLen (connectRest options).length then
        (MQTTPACKET_BUFFER_TOO_SHORT, memory)
      else ((packet.length : Int), store memory buf packet) := by
  have opening (out : Output) :
      (if options.mqttVersion = 4 then
          writeChar (writeCString out protocolMQTT) 4
        else writeChar (writeCString out protocolMQIsdp) 3) =
        out.put (stringBytes (protocolName options.mqttVersion) ++
          [options.mqttVersion]) := by
    cases given.version with
    | inl three =>
        rw [three, if_neg (by decide)]
        unfold writeCString
        rw [writeInt_eq, writeChar_eq, put_put, put_put]
        rfl
    | inr four =>
        rw [four, if_pos rfl]
        unfold writeCString
        rw [writeInt_eq, writeChar_eq, put_put, put_put]
        rfl
  have willed (out : Output) :
      (if options.willFlag ≠ 0 then
          writeMQTTString (writeMQTTString out options.will.topicName)
            options.will.message
        else out) = out.put (willBytes options) := by
    rw [writeMQTTString_eq, writeMQTTString_eq, put_put, put_if]
    rfl
  have named (out : Output) (string : MQTTString) :
      (if (if string.Present then 1#1 else 0#1) = 1#1 then
          writeMQTTString out string
        else out) = out.put (givenBytes string) := by
    rw [writeMQTTString_eq, put_if]
    congr 1
    exact if_congr (announced_iff string) rfl rfl
  unfold mqttSerializeConnect
  dsimp only
  rw [length_connectRest options given]
  by_cases room : buflen < mqttPacketLen (connectRest options).length
  · rw [if_pos room, if_pos room]
  · have user : (connectFlags options).username =
        if options.username.Present then 1#1 else 0#1 := rfl
    have pass : (connectFlags options).password =
        if options.password.Present then 1#1 else 0#1 := rfl
    have written : ((((((([connectHeader.byte] ++
          Base128.spelled (connectRest options).length) ++
          (stringBytes (protocolName options.mqttVersion) ++
            [options.mqttVersion])) ++ [(connectFlags options).all]) ++
          intBytes options.keepAliveInterval.toNat) ++
          stringBytes options.clientID.text) ++ willBytes options) ++
          givenBytes options.username) ++ givenBytes options.password =
        packetBytes connectHeader (connectRest options) := by
      simp only [connectRest, packetBytes, List.append_assoc,
        List.cons_append, List.nil_append]
    rw [if_neg room, if_neg room, writeChar_eq, mqttPacketEncode_eq _ _ fits,
      opening, writeChar_eq, writeInt_eq,
      writeMQTTString_eq _ options.clientID, willed, user,
      named, pass, named]
    simp only [put_put]
    rw [put_result, ← written]
    simp only [List.append_assoc]
    rfl

/-! ### What is read -/

/-- A client that gives a password gives a name, and what is given at the end
of the packet has a character. -/
def Acceptable (options : MQTTPacketConnectData) : Prop :=
  (options.username.Present →
    options.password.Present ∨ options.username.text ≠ []) ∧
  (options.password.Present →
    options.username.Present ∧ options.password.text ≠ [])

instance (options : MQTTPacketConnectData) : Decidable (Acceptable options) := by
  unfold Acceptable
  infer_instance

/-- The options as they were given. -/
structure Connected.Tells (connected : Connected) (memory : Nat → Byte)
    (options : MQTTPacketConnectData) : Prop where
  cleansession_eq : connected.cleansession = options.cleansession &&& 1#8
  keepAliveInterval_eq :
    connected.keepAliveInterval = options.keepAliveInterval
  clientID_eq : connected.clientID.text memory = options.clientID.text
  will_eq : connected.will.map (fun will =>
      (will.qos, will.retained, will.topicName.text memory,
        will.message.text memory)) =
    if options.willFlag ≠ 0 then
      some (options.will.qos &&& 3#8, options.will.retained &&& 1#8,
        options.will.topicName.text, options.will.message.text)
    else none
  username_eq : connected.username.map (Span.text memory) =
    if options.username.Present then some options.username.text else none
  password_eq : connected.password.map (Span.text memory) =
    if options.password.Present then some options.password.text else none

theorem twoBits (byte : Byte) : (byte.setWidth 2).setWidth 8 = byte &&& 3#8 := by
  have every : ∀ byte : Byte, (byte.setWidth 2).setWidth 8 = byte &&& 3#8 := by
    decide +kernel
  exact every byte

theorem mqttPacketCheckVersion_eq (memory : Nat → Byte) (place : Nat)
    (version : Byte) (known : version = 3 ∨ version = 4)
    (laid : Span.text memory ⟨place, (protocolName version).length⟩ =
      protocolName version) :
    mqttPacketCheckVersion memory ⟨place, (protocolName version).length⟩
      version = true := by
  unfold Span.text at laid
  unfold mqttPacketCheckVersion
  cases known with
  | inl three =>
      subst three
      exact if_pos ⟨rfl, laid⟩
  | inr four =>
      subst four
      rw [if_neg (fun other => absurd other.1 (by decide)),
        if_pos ⟨rfl, laid⟩]

section Reading

variable {memory : Nat → Byte} {curdata enddata : Nat}
  {options : MQTTPacketConnectData}

variable (enddata) in
theorem readWill_eq (given : options.WellGiven)
    (laid : Laid memory curdata (willBytes options))
    (within : curdata + (willBytes options).length ≤ enddata) :
    ∃ will, readWill memory (connectFlags options) curdata enddata =
        some (will, curdata + (willBytes options).length) ∧
      will.map (fun will =>
          (will.qos, will.retained, will.topicName.text memory,
            will.message.text memory)) =
        if options.willFlag ≠ 0 then
          some (options.will.qos &&& 3#8, options.will.retained &&& 1#8,
            options.will.topicName.text, options.will.message.text)
        else none := by
  have short := given.short
  simp only [List.forall_mem_cons] at short
  obtain ⟨_, topicShort, messageShort, _⟩ := short
  unfold readWill willBytes at *
  by_cases willed : options.willFlag ≠ 0
  · have flag : (connectFlags options).will = 1#1 := if_pos willed
    have qos : (connectFlags options).willQoS =
        options.will.qos.setWidth 2 := if_pos willed
    have retain : (connectFlags options).willRetain =
        options.will.retained.setWidth 1 := if_pos willed
    rw [if_pos willed] at laid within
    rw [if_pos flag, if_pos willed, if_pos willed, qos, retain]
    rw [List.length_append, length_stringBytes, length_stringBytes] at within
    obtain ⟨topic, message⟩ := (laid_append_iff _ _ _ _).mp laid
    rw [length_stringBytes] at message
    obtain ⟨readTopic, topicText⟩ := readMQTTLenString_eq memory curdata enddata
      _ topicShort topic (by omega)
    obtain ⟨readMessage, messageText⟩ := readMQTTLenString_eq memory _ enddata
      _ messageShort message (by omega)
    rw [readTopic]
    dsimp only [Option.bind_eq_bind, Option.bind_some]
    rw [readMessage]
    dsimp only [Option.bind_some]
    rw [List.length_append, length_stringBytes, length_stringBytes,
      Nat.add_assoc curdata _ (2 + options.will.message.text.length)]
    refine ⟨_, rfl, ?_⟩
    rw [Option.map_some, twoBits, oneBit, topicText, messageText]
  · have flag : (connectFlags options).will = 0#1 := if_neg willed
    rw [flag, if_neg (by decide), if_neg willed, if_neg willed]
    exact ⟨none, rfl, rfl⟩

variable (enddata) in
/-- A string that was given is read if it reaches beyond three bytes with what
follows. -/
theorem readCredential_eq {string : MQTTString}
    (short : string.text.length < 65536)
    (laid : Laid memory curdata (givenBytes string))
    (within : curdata + (givenBytes string).length ≤ enddata)
    (enough : string.Present → curdata + 3 ≤ enddata) :
    ∃ span, readCredential memory (if string.Present then 1#1 else 0#1) curdata
        enddata = some (span, curdata + (givenBytes string).length) ∧
      span.map (Span.text memory) =
        if string.Present then some string.text else none := by
  unfold readCredential givenBytes at *
  by_cases present : string.Present
  · have far := enough present
    rw [if_pos present] at laid within
    rw [length_stringBytes] at within
    obtain ⟨read, text⟩ := readMQTTLenString_eq memory curdata enddata _ short
      laid within
    rw [if_pos present, if_pos rfl, if_neg (by omega), read, if_pos present,
      if_pos present, length_stringBytes]
    exact ⟨some ⟨curdata + 2, string.text.length⟩, rfl, congrArg some text⟩
  · rw [if_neg present, if_neg (by decide), if_neg present, if_neg present]
    exact ⟨none, rfl, rfl⟩

theorem readCredential_none {string : MQTTString} (present : string.Present)
    (short : enddata < curdata + 3) :
    readCredential memory (if string.Present then 1#1 else 0#1) curdata enddata =
      none := by
  unfold readCredential
  rw [if_pos present, if_pos rfl, if_pos short]

theorem readCredentials_eq (given : options.WellGiven)
    (laid : Laid memory curdata
      (givenBytes options.username ++ givenBytes options.password)) :
    if Acceptable options then
      ∃ username password,
        readCredentials memory (connectFlags options) curdata
            (curdata + (givenBytes options.username ++
              givenBytes options.password).length) =
          some (username, password) ∧
        username.map (Span.text memory) =
          (if options.username.Present then some options.username.text
          else none) ∧
        password.map (Span.text memory) =
          if options.password.Present then some options.password.text else none
    else
      readCredentials memory (connectFlags options) curdata
        (curdata + (givenBytes options.username ++
          givenBytes options.password).length) = none := by
  have short := given.short
  simp only [List.forall_mem_cons] at short
  obtain ⟨_, _, _, nameShort, wordShort, _⟩ := short
  obtain ⟨name, word⟩ := (laid_append_iff _ _ _ _).mp laid
  have nameFlag : (connectFlags options).username =
      if options.username.Present then 1#1 else 0#1 := rfl
  have wordFlag : (connectFlags options).password =
      if options.password.Present then 1#1 else 0#1 := rfl
  unfold readCredentials
  rw [nameFlag, wordFlag, List.length_append]
  generalize total : curdata + ((givenBytes options.username).length +
    (givenBytes options.password).length) = enddata
  by_cases named : options.username.Present
  · have nameLength : (givenBytes options.username).length =
        2 + options.username.text.length := by
      unfold givenBytes
      rw [if_pos named, length_stringBytes]
    rw [if_pos ((announced_iff options.username).mpr named)]
    by_cases worded : options.password.Present
    · have wordLength : (givenBytes options.password).length =
          2 + options.password.text.length := by
        unfold givenBytes
        rw [if_pos worded, length_stringBytes]
      obtain ⟨username, readName, nameText⟩ := readCredential_eq
        enddata nameShort name (by omega) (fun _ => by omega)
      rw [readName]
      dsimp only [Option.bind_eq_bind, Option.bind_some]
      by_cases empty : options.password.text = []
      · have refused : ¬ Acceptable options :=
          fun acceptable => (acceptable.2 worded).2 empty
        rw [if_neg refused, readCredential_none worded (by
          rw [empty, List.length_nil] at wordLength
          omega)]
        rfl
      · have acceptable : Acceptable options :=
          ⟨fun _ => Or.inl worded, fun _ => ⟨named, empty⟩⟩
        have some_char := List.length_pos_of_ne_nil empty
        obtain ⟨password, readWord, wordText⟩ := readCredential_eq
          enddata wordShort word (by omega) (fun _ => by omega)
        rw [if_pos acceptable, readWord]
        exact ⟨username, password, rfl, nameText, wordText⟩
    · have wordLength : (givenBytes options.password).length = 0 := by
        unfold givenBytes
        rw [if_neg worded, List.length_nil]
      by_cases empty : options.username.text = []
      · have refused : ¬ Acceptable options := by
          intro acceptable
          cases acceptable.1 named with
          | inl present => exact worded present
          | inr filled => exact filled empty
        rw [if_neg refused, readCredential_none named (by
          rw [empty, List.length_nil] at nameLength
          omega)]
        rfl
      · have acceptable : Acceptable options :=
          ⟨fun _ => Or.inr empty, fun present => absurd present worded⟩
        have some_char := List.length_pos_of_ne_nil empty
        obtain ⟨username, readName, nameText⟩ := readCredential_eq
          enddata nameShort name (by omega) (fun _ => by omega)
        obtain ⟨password, readWord, wordText⟩ := readCredential_eq
          enddata wordShort word (by omega)
          (fun present => absurd present worded)
        rw [if_pos acceptable, readName]
        dsimp only [Option.bind_eq_bind, Option.bind_some]
        rw [readWord]
        exact ⟨username, password, rfl, nameText, wordText⟩
  · rw [if_neg (mt (announced_iff options.username).mp named), if_neg named]
    by_cases worded : options.password.Present
    · have refused : ¬ Acceptable options :=
        fun acceptable => named (acceptable.2 worded).1
      rw [if_neg refused, if_pos ((announced_iff options.password).mpr worded)]
    · have acceptable : Acceptable options :=
        ⟨fun present => absurd present named,
          fun present => absurd present worded⟩
      rw [if_pos acceptable,
        if_neg (mt (announced_iff options.password).mp worded), if_neg worded]
      exact ⟨none, none, rfl, rfl, rfl⟩

end Reading

/-- A session's options that were written are read as they were given if they
are acceptable, and refused if not. -/
theorem mqttDeserializeConnect_eq {memory : Nat → Byte} {buf : Nat}
    {options : MQTTPacketConnectData} (given : options.WellGiven)
    (fits : (connectRest options).length < 128 ^ 4)
    (laid : Laid memory buf (packetBytes connectHeader (connectRest options))) :
    if Acceptable options then
      ∃ connected, mqttDeserializeConnect memory buf
          (packetBytes connectHeader (connectRest options)).length =
        some connected ∧ connected.Tells memory options
    else mqttDeserializeConnect memory buf
      (packetBytes connectHeader (connectRest options)).length = none := by
  have short := given.short
  simp only [List.forall_mem_cons] at short
  obtain ⟨clientShort, _⟩ := short
  obtain ⟨first, length, rest⟩ := laid_packet laid fits
  have total : buf + (packetBytes connectHeader (connectRest options)).length =
      buf + 1 + (Base128.spelled (connectRest options).length).length +
        (connectRest options).length := by
    rw [length_packetBytes]
    omega
  have connect : ¬ connectHeader.type ≠ CONNECT := not_not_intro rfl
  generalize start : buf + 1 + (Base128.spelled (connectRest
    options).length).length = curdata at rest total
  have nameShort : (protocolName options.mqttVersion).length < 65536 := by
    unfold protocolName
    split <;> decide
  unfold connectRest at rest
  obtain ⟨protocol, rest⟩ := (laid_append_iff _ _ _ _).mp rest
  obtain ⟨version, rest⟩ := (laid_append_iff _ _ _ _).mp rest
  obtain ⟨keepAlive, rest⟩ := (laid_append_iff _ _ _ _).mp rest
  obtain ⟨client, rest⟩ := (laid_append_iff _ _ _ _).mp rest
  obtain ⟨will, rest⟩ := (laid_append_iff _ _ _ _).mp rest
  simp only [length_stringBytes, length_intBytes, List.length_cons,
    List.length_nil] at version keepAlive client will rest
  have lengths : (connectRest options).length =
      2 + (protocolName options.mqttVersion).length + (2 + (2 +
        (2 + options.clientID.text.length + ((willBytes options).length +
          (givenBytes options.username ++
            givenBytes options.password).length)))) := by
    unfold connectRest
    simp only [List.length_append, length_stringBytes, length_intBytes,
      List.length_cons, List.length_nil]
  rw [lengths] at total
  obtain ⟨readName, nameText⟩ := readMQTTLenString_eq memory curdata
    (buf + (packetBytes connectHeader (connectRest options)).length) _ nameShort
    protocol (by omega)
  generalize named : curdata + (2 + (protocolName options.mqttVersion).length) =
    behind at version keepAlive client will rest readName
  obtain ⟨versionByte, flags⟩ := (laid_cons_iff _ _ _ _).mp version
  obtain ⟨flagsByte, _⟩ := (laid_cons_iff _ _ _ _).mp flags
  change Laid memory (behind + 2) _ at keepAlive
  change Laid memory (behind + 4) _ at client
  change Laid memory (behind + 4 + (2 + options.clientID.text.length)) _ at will
  change Laid memory (behind + 4 + (2 + options.clientID.text.length) +
    (willBytes options).length) _ at rest
  obtain ⟨readClient, clientText⟩ := readMQTTLenString_eq memory (behind + 4)
    (buf + (packetBytes connectHeader (connectRest options)).length) _
    clientShort client (by omega)
  generalize cliented : behind + 4 + (2 + options.clientID.text.length) =
    place at will rest readClient
  obtain ⟨willed, readTheWill, willTold⟩ := readWill_eq
    (buf + (packetBytes connectHeader (connectRest options)).length)
    given will (by omega)
  have credentials := readCredentials_eq given rest
  have ended : buf + (packetBytes connectHeader (connectRest options)).length =
      place + (willBytes options).length + (givenBytes options.username ++
        givenBytes options.password).length := by omega
  rw [← ended] at credentials
  have run : mqttDeserializeConnect memory buf
      (packetBytes connectHeader (connectRest options)).length =
      (readCredentials memory (connectFlags options)
        (place + (willBytes options).length)
        (buf + (packetBytes connectHeader (connectRest options)).length)).bind
        fun strings => some
          { cleansession := (connectFlags options).cleansession.setWidth 8
            keepAliveInterval :=
              BitVec.ofNat 16 options.keepAliveInterval.toNat
            clientID := ⟨behind + 4 + 2, options.clientID.text.length⟩
            will := willed
            username := strings.1
            password := strings.2 } := by
    unfold mqttDeserializeConnect
    rw [first, length]
    dsimp only
    rw [if_neg connect, start, readName]
    dsimp only [Option.bind_eq_bind, Option.bind_some]
    rw [if_neg (by omega), versionByte, mqttPacketCheckVersion_eq memory
      (curdata + 2) options.mqttVersion given.version nameText, if_pos rfl,
      flagsByte, MQTTConnectFlags.ofAll_all,
      readInt_eq _ _ _ options.keepAliveInterval.isLt keepAlive, readClient]
    dsimp only [Option.bind_some]
    rw [readTheWill]
    rfl
  rw [run]
  by_cases acceptable : Acceptable options
  · rw [if_pos acceptable] at credentials ⊢
    obtain ⟨username, password, read, nameTold, wordTold⟩ := credentials
    rw [read]
    refine ⟨_, rfl, ⟨oneBit _, ?_, clientText, willTold, nameTold, wordTold⟩⟩
    rw [BitVec.ofNat_toNat, BitVec.setWidth_eq]
  · rw [if_neg acceptable] at credentials ⊢
    rw [credentials]
    rfl

/-- The options of a session are refused for want of room and nothing is
written, or their packet is put into the buffer, within its bounds. It is then
read back as it was given if the options are acceptable, and refused if not. -/
theorem connect_round_trip (memory : Nat → Byte) (buf buflen : Nat)
    (options : MQTTPacketConnectData) (given : options.WellGiven) :
    let result := mqttSerializeConnect memory buf buflen options
    if buflen < mqttPacketLen (mqttSerializeConnectLength options) then
      result = (MQTTPACKET_BUFFER_TOO_SHORT, memory)
    else
      ∃ len, Wrote memory buf buflen result len ∧
        if Acceptable options then
          ∃ connected, mqttDeserializeConnect result.2 buf len = some connected ∧
            connected.Tells result.2 options
        else mqttDeserializeConnect result.2 buf len = none := by
  intro result
  have fits := connectRest_short options given
  rw [length_connectRest options given]
  have written := mqttSerializeConnect_eq memory buf buflen options given fits
  dsimp only at written
  by_cases room : buflen < mqttPacketLen (connectRest options).length
  · rw [if_pos room] at written ⊢
    exact written
  · rw [if_neg room] at written ⊢
    rw [show result = _ from written]
    exact ⟨_, wrote_packet memory buf buflen _ _ fits room,
      mqttDeserializeConnect_eq given fits (laid_store _ _ _)⟩

/-- The default options with a name but no word. -/
def optionsNamed (username : List Byte) : MQTTPacketConnectData where
  mqttVersion := 4
  clientID := ⟨some [99#8, 49#8], none⟩
  keepAliveInterval := 60#16
  cleansession := 1
  willFlag := 0
  will := ⟨⟨none, none⟩, ⟨none, none⟩, 0, 0⟩
  username := ⟨some username, none⟩
  password := ⟨none, none⟩

/-- A name of one character is read back, an empty one at the end is not. -/
theorem connect_round_trip_named :
    (∃ len connected, mqttDeserializeConnect
        (mqttSerializeConnect (fun _ => 0) 64 64 (optionsNamed [117#8])).2 64
          len = some connected) ∧
      ∃ len, mqttDeserializeConnect
        (mqttSerializeConnect (fun _ => 0) 64 64 (optionsNamed [])).2 64 len =
          none := by
  have first := connect_round_trip (fun _ => 0) 64 64 (optionsNamed [117#8])
    ⟨by decide, by decide, by decide⟩
  have second := connect_round_trip (fun _ => 0) 64 64 (optionsNamed [])
    ⟨by decide, by decide, by decide⟩
  dsimp only at first second
  rw [if_neg (by decide)] at first second
  obtain ⟨len, _, told⟩ := first
  obtain ⟨other, _, refused⟩ := second
  rw [if_pos (by decide)] at told
  rw [if_neg (by decide)] at refused
  obtain ⟨connected, read, _⟩ := told
  exact ⟨⟨len, connected, read⟩, other, refused⟩

end XR872.Mqtt
