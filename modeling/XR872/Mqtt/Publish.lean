/-
Messages and their acknowledgements as MQTT packets.

A packet is put into a buffer only if it fits; what was put there is read back
as it was given.
-/

import XR872.Mqtt.Packet

namespace XR872.Mqtt

open BitView
open Memories

/-! ### Writing -/

def mqttSerializePublishLength (qos : Int) (topicName : MQTTString)
    (payloadlen : Nat) : Nat :=
  let len := 2 + mqttStrlen topicName + payloadlen
  if 0 < qos then len + 2 else len

/-- The result and the memory. -/
def mqttSerializePublish (memory : Nat → Byte) (buf buflen : Nat) (dup : Byte)
    (qos : Int) (retained : Byte) (packetid : BitVec 16)
    (topicName : MQTTString) (payload : List Byte) : Int × (Nat → Byte) :=
  let remLen := mqttSerializePublishLength qos topicName payload.length
  if buflen < mqttPacketLen remLen then (MQTTPACKET_BUFFER_TOO_SHORT, memory)
  else
    let header : MQTTHeader :=
      { type := PUBLISH, dup := dup.setWidth 1, qos := BitVec.ofInt 2 qos,
        retain := retained.setWidth 1 }
    let out := writeChar ⟨memory, buf⟩ header.byte
    let out := mqttPacketEncode out remLen
    let out := writeMQTTString out topicName
    let out := if 0 < qos then writeInt out packetid.toNat else out
    let out := out.put payload
    (out.ptr - buf, out.memory)

def mqttSerializeAck (memory : Nat → Byte) (buf buflen : Nat)
    (packettype dup : Byte) (packetid : BitVec 16) : Int × (Nat → Byte) :=
  if buflen < 4 then (MQTTPACKET_BUFFER_TOO_SHORT, memory)
  else
    let header : MQTTHeader :=
      { type := packettype.setWidth 4, dup := dup.setWidth 1,
        qos := if packettype = PUBREL.setWidth 8 then 1#2 else 0#2,
        retain := 0#1 }
    let out := writeChar ⟨memory, buf⟩ header.byte
    let out := mqttPacketEncode out 2
    let out := writeInt out packetid.toNat
    (out.ptr - buf, out.memory)

def mqttSerializePuback (memory : Nat → Byte) (buf buflen : Nat)
    (packetid : BitVec 16) : Int × (Nat → Byte) :=
  mqttSerializeAck memory buf buflen (PUBACK.setWidth 8) 0#8 packetid

def mqttSerializePubrel (memory : Nat → Byte) (buf buflen : Nat) (dup : Byte)
    (packetid : BitVec 16) : Int × (Nat → Byte) :=
  mqttSerializeAck memory buf buflen (PUBREL.setWidth 8) dup packetid

def mqttSerializePubcomp (memory : Nat → Byte) (buf buflen : Nat)
    (packetid : BitVec 16) : Int × (Nat → Byte) :=
  mqttSerializeAck memory buf buflen (PUBCOMP.setWidth 8) 0#8 packetid

/-- A packet with nothing behind its length. -/
def mqttSerializeZero (memory : Nat → Byte) (buf buflen : Nat)
    (packettype : BitVec 4) : Int × (Nat → Byte) :=
  if buflen < 2 then (MQTTPACKET_BUFFER_TOO_SHORT, memory)
  else
    let header : MQTTHeader :=
      { type := packettype, dup := 0#1, qos := 0#2, retain := 0#1 }
    let out := writeChar ⟨memory, buf⟩ header.byte
    let out := mqttPacketEncode out 0
    (out.ptr - buf, out.memory)

def mqttSerializePingreq (memory : Nat → Byte) (buf buflen : Nat) :
    Int × (Nat → Byte) :=
  mqttSerializeZero memory buf buflen PINGREQ

/-! ### Reading -/

/-- What `MQTTDeserialize_publish` hands out. The identifier is set only for a
`qos` above zero; the length is negative if the identifier is cut off. -/
structure Published where
  dup : Byte
  qos : Nat
  retained : Byte
  packetid : Option (BitVec 16)
  topicName : Span
  payload : Nat
  payloadlen : Int
deriving DecidableEq

/-- The result, and what is handed out if all of it is. Where the string is
refused, the result is still the count of length bytes. -/
def mqttDeserializePublish (memory : Nat → Byte) (buf : Nat) :
    Int × Option Published :=
  let header := MQTTHeader.ofByte (memory buf)
  let curdata := buf + 1
  if header.type ≠ PUBLISH then (0, none)
  else
    let (rc, mylen) := mqttPacketDecodeBuf memory curdata
    let curdata := curdata + rc
    let enddata := curdata + mylen
    match readMQTTLenString memory curdata enddata with
    | none => (rc, none)
    | some (topicName, curdata) =>
        let qos := header.qos.toNat
        let packetid :=
          if 0 < qos then some (BitVec.ofNat 16 (readInt memory curdata))
          else none
        let curdata := if 0 < qos then curdata + 2 else curdata
        (1, some
          { dup := header.dup.setWidth 8, qos := qos,
            retained := header.retain.setWidth 8, packetid := packetid,
            topicName := topicName, payload := curdata,
            payloadlen := (enddata : Int) - curdata })

/-- What `MQTTDeserialize_ack` hands out. -/
structure Acked where
  packettype : Byte
  dup : Byte
  packetid : BitVec 16
deriving DecidableEq

/-- The type of the packet is handed out in any case. -/
def mqttDeserializeAck (memory : Nat → Byte) (buf : Nat) :
    Int × Byte × Option Acked :=
  let header := MQTTHeader.ofByte (memory buf)
  let packettype := header.type.setWidth 8
  let (rc, mylen) := mqttPacketDecodeBuf memory (buf + 1)
  let curdata := buf + 1 + rc
  let enddata := curdata + mylen
  if enddata < curdata + 2 then (rc, packettype, none)
  else
    (1, packettype, some
      { packettype := packettype, dup := header.dup.setWidth 8,
        packetid := BitVec.ofNat 16 (readInt memory curdata) })

/-! ### Packets -/

/-- A packet: the first byte, the length of the rest, the rest. -/
def packetBytes (header : MQTTHeader) (rest : List Byte) : List Byte :=
  header.byte :: (Base128.spelled rest.length ++ rest)

@[simp] theorem length_packetBytes (header : MQTTHeader) (rest : List Byte) :
    (packetBytes header rest).length =
      1 + (Base128.spelled rest.length).length + rest.length := by
  rw [packetBytes, List.length_cons, List.length_append]
  omega

theorem packetBytes_fits (header : MQTTHeader) (rest : List Byte)
    (fits : rest.length < 128 ^ 4) :
    (packetBytes header rest).length ≤ mqttPacketLen rest.length := by
  rw [length_packetBytes]
  exact mqttPacketLen_enough rest.length fits

structure Wrote (memory : Nat → Byte) (buf buflen : Nat)
    (result : Int × (Nat → Byte)) (len : Nat) : Prop where
  result_eq : result.1 = len
  positive : 0 < len
  within : len ≤ buflen
  outside : ∀ address, address < buf ∨ buf + len ≤ address →
    result.2 address = memory address

theorem wrote_packet (memory : Nat → Byte) (buf buflen : Nat)
    (header : MQTTHeader) (rest : List Byte) (fits : rest.length < 128 ^ 4)
    (room : ¬ buflen < mqttPacketLen rest.length) :
    Wrote memory buf buflen
      (((packetBytes header rest).length : Int),
        store memory buf (packetBytes header rest))
      (packetBytes header rest).length where
  result_eq := rfl
  positive := Nat.zero_lt_succ _
  within := Nat.le_trans (packetBytes_fits header rest fits)
    (Nat.le_of_not_lt room)
  outside := fun address outside =>
    store_outside memory buf (packetBytes header rest) address outside

theorem laid_packet {memory : Nat → Byte} {buf : Nat} {header : MQTTHeader}
    {rest : List Byte} (laid : Laid memory buf (packetBytes header rest))
    (fits : rest.length < 128 ^ 4) :
    MQTTHeader.ofByte (memory buf) = header ∧
      mqttPacketDecodeBuf memory (buf + 1) =
        ((Base128.spelled rest.length).length, rest.length) ∧
      Laid memory (buf + 1 + (Base128.spelled rest.length).length) rest := by
  obtain ⟨first, others⟩ := (laid_cons_iff _ _ _ _).mp laid
  obtain ⟨length, content⟩ := (laid_append_iff _ _ _ _).mp others
  refine ⟨?_, mqttPacketDecodeBuf_eq memory _ _ fits length, content⟩
  rw [first, MQTTHeader.ofByte_byte]

/-! ### Messages -/

def publishHeader (dup : Byte) (qos : Int) (retained : Byte) : MQTTHeader :=
  { type := PUBLISH, dup := dup.setWidth 1, qos := BitVec.ofInt 2 qos,
    retain := retained.setWidth 1 }

def publishRest (qos : Int) (packetid : BitVec 16) (topic payload : List Byte) :
    List Byte :=
  stringBytes topic ++
    ((if 0 < qos then intBytes packetid.toNat else []) ++ payload)

theorem length_publishRest (qos : Int) (packetid : BitVec 16)
    (topicName : MQTTString) (payload : List Byte)
    (oneForm : topicName.OneForm) :
    mqttSerializePublishLength qos topicName payload.length =
      (publishRest qos packetid topicName.text payload).length := by
  unfold mqttSerializePublishLength publishRest
  rw [mqttStrlen_eq topicName oneForm]
  by_cases acked : 0 < qos
  · simp only [if_pos acked, List.length_append, length_stringBytes,
      length_intBytes]
    omega
  · simp only [if_neg acked, List.length_append, length_stringBytes,
      List.length_nil]
    omega

theorem mqttSerializePublish_eq (memory : Nat → Byte) (buf buflen : Nat)
    (dup : Byte) (qos : Int) (retained : Byte) (packetid : BitVec 16)
    (topicName : MQTTString) (payload : List Byte)
    (oneForm : topicName.OneForm)
    (fits : (publishRest qos packetid topicName.text payload).length <
      128 ^ 4) :
    mqttSerializePublish memory buf buflen dup qos retained packetid topicName
        payload =
      let rest := publishRest qos packetid topicName.text payload
      let packet := packetBytes (publishHeader dup qos retained) rest
      if buflen < mqttPacketLen rest.length then
        (MQTTPACKET_BUFFER_TOO_SHORT, memory)
      else ((packet.length : Int), store memory buf packet) := by
  unfold mqttSerializePublish
  dsimp only
  rw [length_publishRest qos packetid topicName payload oneForm]
  split
  · rfl
  · rw [writeChar_eq, mqttPacketEncode_eq _ _ fits, writeMQTTString_eq,
      writeInt_eq, put_if, put_put, put_put, put_put, put_put, put_result]
    have written : (([(publishHeader dup qos retained).byte] ++
          Base128.spelled (publishRest qos packetid topicName.text
            payload).length ++ stringBytes topicName.text) ++
          if 0 < qos then intBytes packetid.toNat else []) ++ payload =
        packetBytes (publishHeader dup qos retained)
          (publishRest qos packetid topicName.text payload) := by
      simp only [publishRest, packetBytes, List.append_assoc,
        List.cons_append, List.nil_append]
    simp only [List.append_assoc] at written ⊢
    unfold publishHeader at written
    rw [written]
    rfl

theorem oneBit (byte : Byte) : (byte.setWidth 1).setWidth 8 = byte &&& 1#8 := by
  have every : ∀ byte : Byte, (byte.setWidth 1).setWidth 8 = byte &&& 1#8 := by
    decide +kernel
  exact every byte

/-- A message that was read as it was given. -/
structure Published.Tells (published : Published) (memory : Nat → Byte)
    (dup : Byte) (qos : Int) (retained : Byte) (packetid : BitVec 16)
    (topic payload : List Byte) : Prop where
  dup_eq : published.dup = dup &&& 1#8
  qos_eq : (published.qos : Int) = qos
  retained_eq : published.retained = retained &&& 1#8
  packetid_eq : published.packetid = if 0 < qos then some packetid else none
  topic_eq : published.topicName.text memory = topic
  payload_eq : load memory published.payload payload.length = payload
  payloadlen_eq : published.payloadlen = payload.length

theorem mqttDeserializePublish_eq {memory : Nat → Byte} {buf : Nat} {dup : Byte}
    {qos : Int} {retained : Byte} {packetid : BitVec 16}
    {topic payload : List Byte} (served : 0 ≤ qos ∧ qos < 4)
    (short : topic.length < 65536)
    (fits : (publishRest qos packetid topic payload).length < 128 ^ 4)
    (laid : Laid memory buf (packetBytes (publishHeader dup qos retained)
      (publishRest qos packetid topic payload))) :
    ∃ published, mqttDeserializePublish memory buf = (1, some published) ∧
      published.Tells memory dup qos retained packetid topic payload := by
  obtain ⟨header, length, rest⟩ := laid_packet laid fits
  generalize place : buf + 1 + (Base128.spelled (publishRest qos packetid topic
    payload).length).length = curdata at rest
  have total : (publishRest qos packetid topic payload).length =
      2 + topic.length + (if 0 < qos then 2 else 0) + payload.length := by
    unfold publishRest
    split <;> simp only [List.length_append, length_stringBytes,
      length_intBytes, List.length_nil] <;> omega
  obtain ⟨string, others⟩ := (laid_append_iff _ _ _ _).mp rest
  obtain ⟨number, content⟩ := (laid_append_iff _ _ _ _).mp others
  rw [length_stringBytes] at number content
  obtain ⟨read, text⟩ := readMQTTLenString_eq memory curdata
    (curdata + (publishRest qos packetid topic payload).length) topic short
    string (by rw [total]; omega)
  have qosBits : (publishHeader dup qos retained).qos.toNat = qos.toNat := by
    unfold publishHeader
    rw [BitVec.toNat_ofInt]
    congr 1
    exact Int.emod_eq_of_lt served.1 served.2
  have positive : 0 < qos.toNat ↔ 0 < qos := Int.lt_toNat
  have publish : ¬ (publishHeader dup qos retained).type ≠ PUBLISH :=
    not_not_intro rfl
  unfold mqttDeserializePublish
  rw [header]
  dsimp only
  rw [length, if_neg publish]
  dsimp only
  rw [place, read, qosBits]
  refine ⟨_, rfl, ⟨oneBit dup, Int.toNat_of_nonneg served.1, oneBit retained,
    ?_, text, ?_, ?_⟩⟩
  · by_cases acked : 0 < qos
    · rw [if_pos acked] at number ⊢
      rw [if_pos (positive.mpr acked), readInt_eq _ _ _ packetid.isLt number,
        BitVec.ofNat_toNat, BitVec.setWidth_eq]
    · rw [if_neg acked, if_neg (mt positive.mp acked)]
  · have behind : curdata + (2 + topic.length) +
          (if 0 < qos then intBytes packetid.toNat else []).length =
        if 0 < qos.toNat then curdata + (2 + topic.length) + 2
        else curdata + (2 + topic.length) := by
      by_cases acked : 0 < qos
      · rw [if_pos acked, if_pos (positive.mpr acked), length_intBytes]
      · rw [if_neg acked, if_neg (mt positive.mp acked), List.length_nil,
          Nat.add_zero]
    rw [behind] at content
    exact content
  · dsimp only
    rw [total]
    split <;> split <;> omega

/-- A message is refused for want of room and nothing is written, or its packet
is put into the buffer, within its bounds, and read back as it was given. -/
theorem publish_round_trip (memory : Nat → Byte) (buf buflen : Nat)
    (dup : Byte) (qos : Int) (retained : Byte) (packetid : BitVec 16)
    (topicName : MQTTString) (payload : List Byte)
    (oneForm : topicName.OneForm) (served : 0 ≤ qos ∧ qos < 4)
    (short : topicName.text.length < 65536)
    (fits : mqttSerializePublishLength qos topicName payload.length < 128 ^ 4) :
    let result := mqttSerializePublish memory buf buflen dup qos retained
      packetid topicName payload
    if buflen < mqttPacketLen
        (mqttSerializePublishLength qos topicName payload.length) then
      result = (MQTTPACKET_BUFFER_TOO_SHORT, memory)
    else
      (∃ len, Wrote memory buf buflen result len) ∧
        ∃ published, mqttDeserializePublish result.2 buf = (1, some published) ∧
          published.Tells result.2 dup qos retained packetid topicName.text
            payload := by
  intro result
  rw [length_publishRest qos packetid topicName payload oneForm] at fits ⊢
  have written := mqttSerializePublish_eq memory buf buflen dup qos retained
    packetid topicName payload oneForm fits
  dsimp only at written
  by_cases room : buflen < mqttPacketLen
      (publishRest qos packetid topicName.text payload).length
  · rw [if_pos room] at written ⊢
    exact written
  · rw [if_neg room] at written ⊢
    rw [show result = _ from written]
    exact ⟨⟨_, wrote_packet memory buf buflen _ _ fits room⟩,
      mqttDeserializePublish_eq served short fits (laid_store _ _ _)⟩

/-- A message of three bytes that is to be acknowledged. -/
theorem publish_round_trip_hey :
    ∃ published,
      mqttDeserializePublish
          (mqttSerializePublish (fun _ => 0) 64 32 0 1 0 7 ⟨some [97, 47, 98], none⟩
            [104, 101, 121]).2 64 = (1, some published) ∧
        published.packetid = some 7 := by
  have trip := publish_round_trip (fun _ => 0) 64 32 0 1 0 7
    ⟨some [97, 47, 98], none⟩ [104, 101, 121] (Or.inr rfl) (by decide)
    (by decide) (by decide)
  rw [if_neg (by decide)] at trip
  obtain ⟨_, published, read, tells⟩ := trip
  exact ⟨published, read, tells.packetid_eq⟩

end XR872.Mqtt
