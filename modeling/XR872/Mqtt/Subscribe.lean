/-
Subscriptions as MQTT packets: lists of topic filters, and what was granted.
-/

import XR872.Mqtt.Publish

namespace XR872.Mqtt

open BitView
open Memories

/-! ### Lists of filters -/

/-- A filter with the quality that is asked for, if the packet has one. -/
structure TopicFilter where
  filter : MQTTString
  requestedQoS : Option Int
deriving DecidableEq

namespace TopicFilter

def qosBytes (topic : TopicFilter) : List Byte :=
  (topic.requestedQoS.map fun qos => BitVec.ofInt 8 qos).toList

def bytes (topic : TopicFilter) : List Byte :=
  stringBytes topic.filter.text ++ topic.qosBytes

end TopicFilter

def filtersLength (topics : List TopicFilter) : Nat :=
  topics.foldl
    (fun len topic =>
      len + 2 + mqttStrlen topic.filter + topic.qosBytes.length) 2

def serializeFilters (type : BitVec 4) (memory : Nat → Byte) (buf buflen : Nat)
    (dup : Byte) (packetid : BitVec 16) (topics : List TopicFilter) :
    Int × (Nat → Byte) :=
  let remLen := filtersLength topics
  if buflen < mqttPacketLen remLen then (MQTTPACKET_BUFFER_TOO_SHORT, memory)
  else
    let header : MQTTHeader :=
      { type := type, dup := dup.setWidth 1, qos := 1#2, retain := 0#1 }
    let out := writeChar ⟨memory, buf⟩ header.byte
    let out := mqttPacketEncode out remLen
    let out := writeInt out packetid.toNat
    let out := topics.foldl
      (fun out topic => (writeMQTTString out topic.filter).put topic.qosBytes)
      out
    (out.ptr - buf, out.memory)

def mqttSerializeSubscribe (memory : Nat → Byte) (buf buflen : Nat) (dup : Byte)
    (packetid : BitVec 16) (topicFilters : List (MQTTString × Int)) :
    Int × (Nat → Byte) :=
  serializeFilters SUBSCRIBE memory buf buflen dup packetid
    (topicFilters.map fun topic => ⟨topic.1, some topic.2⟩)

def mqttSerializeUnsubscribe (memory : Nat → Byte) (buf buflen : Nat)
    (dup : Byte) (packetid : BitVec 16) (topicFilters : List MQTTString) :
    Int × (Nat → Byte) :=
  serializeFilters UNSUBSCRIBE memory buf buflen dup packetid
    (topicFilters.map fun topic => ⟨topic, none⟩)

/-- The turns of the loop over the filters of a packet; a filter takes two
bytes at least. -/
def readFilters (withQoS : Bool) (memory : Nat → Byte) :
    Nat → Nat → Nat → Option (List (Span × Option Byte))
  | 0, _, _ => some []
  | turns + 1, curdata, enddata =>
      if enddata ≤ curdata then some []
      else
        match readMQTTLenString memory curdata enddata with
        | none => none
        | some (filter, curdata) =>
            if withQoS then
              if enddata ≤ curdata then none
              else do
                let rest ←
                  readFilters withQoS memory turns (curdata + 1) enddata
                return (filter, some (memory curdata)) :: rest
            else do
              let rest ← readFilters withQoS memory turns curdata enddata
              return (filter, none) :: rest

/-- What both readers hand out. -/
structure Requested where
  dup : Byte
  packetid : BitVec 16
  topicFilters : List (Span × Option Byte)
deriving DecidableEq

/-- The result, and what is handed out if all of it is. Where a filter is
refused, the result is still the count of length bytes. -/
def deserializeFilters (type : BitVec 4) (withQoS : Bool) (unlike : Int)
    (memory : Nat → Byte) (buf : Nat) : Int × Option Requested :=
  let header := MQTTHeader.ofByte (memory buf)
  if header.type ≠ type then (unlike, none)
  else
    let (rc, mylen) := mqttPacketDecodeBuf memory (buf + 1)
    let curdata := buf + 1 + rc
    let enddata := curdata + mylen
    match readFilters withQoS memory mylen (curdata + 2) enddata with
    | none => (rc, none)
    | some topicFilters =>
        (1, some
          { dup := header.dup.setWidth 8,
            packetid := BitVec.ofNat 16 (readInt memory curdata),
            topicFilters := topicFilters })

def mqttDeserializeSubscribe (memory : Nat → Byte) (buf : Nat) :
    Int × Option Requested :=
  deserializeFilters SUBSCRIBE true (-1) memory buf

def mqttDeserializeUnsubscribe (memory : Nat → Byte) (buf : Nat) :
    Int × Option Requested :=
  deserializeFilters UNSUBSCRIBE false 0 memory buf

/-! ### What is written -/

def filtersHeader (type : BitVec 4) (dup : Byte) : MQTTHeader :=
  { type := type, dup := dup.setWidth 1, qos := 1#2, retain := 0#1 }

def filtersRest (packetid : BitVec 16) (topics : List TopicFilter) :
    List Byte :=
  intBytes packetid.toNat ++ topics.flatMap TopicFilter.bytes

theorem filtersLength_from (topics : List TopicFilter) (start : Nat)
    (oneForm : ∀ topic ∈ topics, topic.filter.OneForm) :
    topics.foldl
        (fun len topic =>
          len + 2 + mqttStrlen topic.filter + topic.qosBytes.length) start =
      start + (topics.flatMap TopicFilter.bytes).length := by
  induction topics generalizing start with
  | nil => rfl
  | cons topic rest ih =>
      obtain ⟨first, others⟩ := List.forall_mem_cons.mp oneForm
      rw [List.foldl_cons, ih _ others, List.flatMap_cons, List.length_append,
        TopicFilter.bytes, List.length_append, length_stringBytes,
        mqttStrlen_eq _ first]
      omega

theorem length_filtersRest (packetid : BitVec 16) (topics : List TopicFilter)
    (oneForm : ∀ topic ∈ topics, topic.filter.OneForm) :
    filtersLength topics = (filtersRest packetid topics).length := by
  rw [filtersLength, filtersLength_from topics 2 oneForm, filtersRest,
    List.length_append, length_intBytes]

theorem writeFilters_eq (topics : List TopicFilter) (out : Output) :
    topics.foldl
        (fun out topic => (writeMQTTString out topic.filter).put topic.qosBytes)
        out =
      out.put (topics.flatMap TopicFilter.bytes) := by
  induction topics generalizing out with
  | nil => exact (put_nil out).symm
  | cons topic rest ih =>
      rw [List.foldl_cons, ih, writeMQTTString_eq, put_put, put_put,
        List.flatMap_cons, TopicFilter.bytes, List.append_assoc]

theorem serializeFilters_eq (type : BitVec 4) (memory : Nat → Byte)
    (buf buflen : Nat) (dup : Byte) (packetid : BitVec 16)
    (topics : List TopicFilter)
    (oneForm : ∀ topic ∈ topics, topic.filter.OneForm)
    (fits : (filtersRest packetid topics).length < 128 ^ 4) :
    serializeFilters type memory buf buflen dup packetid topics =
      let packet := packetBytes (filtersHeader type dup)
        (filtersRest packetid topics)
      if buflen < mqttPacketLen (filtersRest packetid topics).length then
        (MQTTPACKET_BUFFER_TOO_SHORT, memory)
      else ((packet.length : Int), store memory buf packet) := by
  unfold serializeFilters
  dsimp only
  rw [length_filtersRest packetid topics oneForm]
  by_cases room : buflen < mqttPacketLen (filtersRest packetid topics).length
  · rw [if_pos room, if_pos room]
  · rw [if_neg room, if_neg room, writeChar_eq, mqttPacketEncode_eq _ _ fits,
      writeInt_eq, writeFilters_eq, put_put, put_put, put_put, put_result]
    rfl

/-! ### What is read -/

def FilterTold (memory : Nat → Byte) (topic : TopicFilter)
    (read : Span × Option Byte) : Prop :=
  read.1.text memory = topic.filter.text ∧
    read.2 = topic.requestedQoS.map fun qos => BitVec.ofInt 8 qos

theorem readFilters_eq (withQoS : Bool) (memory : Nat → Byte)
    (topics : List TopicFilter) (turns curdata : Nat)
    (kind : ∀ topic ∈ topics, topic.requestedQoS.isSome = withQoS)
    (short : ∀ topic ∈ topics, topic.filter.text.length < 65536)
    (laid : Laid memory curdata (topics.flatMap TopicFilter.bytes))
    (enough : topics.length ≤ turns) :
    ∃ read, readFilters withQoS memory turns curdata
        (curdata + (topics.flatMap TopicFilter.bytes).length) = some read ∧
      List.Forall₂ (FilterTold memory) topics read := by
  induction topics generalizing turns curdata with
  | nil =>
      refine ⟨[], ?_, List.Forall₂.nil⟩
      cases turns with
      | zero => rfl
      | succ turns =>
          exact if_pos (Nat.le_refl curdata)
  | cons topic rest ih =>
      obtain ⟨firstKind, kind⟩ := List.forall_mem_cons.mp kind
      obtain ⟨firstShort, short⟩ := List.forall_mem_cons.mp short
      rw [List.flatMap_cons, TopicFilter.bytes, List.append_assoc] at laid
      obtain ⟨string, others⟩ := (laid_append_iff _ _ _ _).mp laid
      obtain ⟨qos, others⟩ := (laid_append_iff _ _ _ _).mp others
      rw [length_stringBytes] at qos others
      cases turns with
      | zero => exact absurd enough (Nat.not_succ_le_zero _)
      | succ turns =>
          obtain ⟨read, readRest, told⟩ := ih turns _ kind short others
            (Nat.le_of_succ_le_succ enough)
          generalize total : curdata + ((topic :: rest).flatMap
            TopicFilter.bytes).length = enddata
          rw [List.flatMap_cons, List.length_append, TopicFilter.bytes,
            List.length_append, length_stringBytes] at total
          obtain ⟨readString, text⟩ := readMQTTLenString_eq memory curdata
            enddata _ firstShort string (by omega)
          rw [readFilters, if_neg (by omega), readString]
          dsimp only
          have ended : curdata + (2 + topic.filter.text.length) +
              topic.qosBytes.length + (rest.flatMap TopicFilter.bytes).length =
              enddata := by omega
          rw [ended] at readRest
          cases asked : topic.requestedQoS with
          | none =>
              have without : withQoS = false := by
                rw [← firstKind, asked]
                rfl
              have noByte : topic.qosBytes.length = 0 := by
                rw [TopicFilter.qosBytes, asked]
                rfl
              rw [noByte, Nat.add_zero] at readRest
              rw [without] at readRest ⊢
              rw [if_neg Bool.false_ne_true, readRest]
              exact ⟨_, rfl, List.Forall₂.cons ⟨text, by rw [asked]; rfl⟩ told⟩
          | some value =>
              have withIt : withQoS = true := by
                rw [← firstKind, asked]
                rfl
              have oneByte : topic.qosBytes = [BitVec.ofInt 8 value] := by
                rw [TopicFilter.qosBytes, asked]
                rfl
              rw [oneByte] at qos readRest ended
              rw [List.length_singleton] at readRest ended
              obtain ⟨byte, _⟩ := (laid_cons_iff _ _ _ _).mp qos
              rw [withIt] at readRest ⊢
              rw [if_pos rfl, if_neg (by omega), readRest, byte]
              exact ⟨_, rfl, List.Forall₂.cons ⟨text, by rw [asked]; rfl⟩ told⟩

/-- A request that was read as it was given. -/
structure Requested.Tells (requested : Requested) (memory : Nat → Byte)
    (dup : Byte) (packetid : BitVec 16) (topics : List TopicFilter) : Prop where
  dup_eq : requested.dup = dup &&& 1#8
  packetid_eq : requested.packetid = packetid
  topicFilters_eq :
    List.Forall₂ (FilterTold memory) topics requested.topicFilters

theorem length_le_filters (topics : List TopicFilter) :
    topics.length ≤ (topics.flatMap TopicFilter.bytes).length := by
  induction topics with
  | nil => exact Nat.le_refl _
  | cons topic rest ih =>
      rw [List.flatMap_cons, List.length_append, TopicFilter.bytes,
        List.length_append, length_stringBytes, List.length_cons]
      omega

theorem deserializeFilters_eq {type : BitVec 4} {withQoS : Bool} {unlike : Int}
    {memory : Nat → Byte} {buf : Nat} {dup : Byte} {packetid : BitVec 16}
    {topics : List TopicFilter}
    (kind : ∀ topic ∈ topics, topic.requestedQoS.isSome = withQoS)
    (short : ∀ topic ∈ topics, topic.filter.text.length < 65536)
    (fits : (filtersRest packetid topics).length < 128 ^ 4)
    (laid : Laid memory buf (packetBytes (filtersHeader type dup)
      (filtersRest packetid topics))) :
    ∃ requested,
      deserializeFilters type withQoS unlike memory buf =
          (1, some requested) ∧
        requested.Tells memory dup packetid topics := by
  obtain ⟨first, length, rest⟩ := laid_packet laid fits
  have same : ¬ (filtersHeader type dup).type ≠ type := not_not_intro rfl
  have total : (filtersRest packetid topics).length =
      2 + (topics.flatMap TopicFilter.bytes).length := by
    rw [filtersRest, List.length_append, length_intBytes]
  obtain ⟨number, filters⟩ := (laid_append_iff _ _ _ _).mp rest
  rw [length_intBytes] at filters
  obtain ⟨read, run, told⟩ := readFilters_eq withQoS memory topics
    (filtersRest packetid topics).length _ kind short filters
    (Nat.le_trans (length_le_filters topics) (by omega))
  unfold deserializeFilters
  rw [first]
  dsimp only
  rw [length, if_neg same]
  dsimp only
  rw [Nat.add_assoc _ 2, ← total] at run
  rw [run, readInt_eq _ _ _ packetid.isLt number]
  refine ⟨_, rfl, ⟨oneBit dup, ?_, told⟩⟩
  rw [BitVec.ofNat_toNat, BitVec.setWidth_eq]

theorem filters_round_trip (type : BitVec 4) (withQoS : Bool) (unlike : Int)
    (memory : Nat → Byte) (buf buflen : Nat) (dup : Byte)
    (packetid : BitVec 16) (topics : List TopicFilter)
    (kind : ∀ topic ∈ topics, topic.requestedQoS.isSome = withQoS)
    (oneForm : ∀ topic ∈ topics, topic.filter.OneForm)
    (short : ∀ topic ∈ topics, topic.filter.text.length < 65536)
    (fits : filtersLength topics < 128 ^ 4) :
    let result := serializeFilters type memory buf buflen dup packetid topics
    if buflen < mqttPacketLen (filtersLength topics) then
      result = (MQTTPACKET_BUFFER_TOO_SHORT, memory)
    else
      (∃ len, Wrote memory buf buflen result len) ∧
        ∃ requested,
          deserializeFilters type withQoS unlike result.2 buf =
              (1, some requested) ∧
            requested.Tells result.2 dup packetid topics := by
  intro result
  rw [length_filtersRest packetid topics oneForm] at fits ⊢
  have written := serializeFilters_eq type memory buf buflen dup packetid topics
    oneForm fits
  dsimp only at written
  by_cases room : buflen < mqttPacketLen (filtersRest packetid topics).length
  · rw [if_pos room] at written ⊢
    exact written
  · rw [if_neg room] at written ⊢
    rw [show result = _ from written]
    exact ⟨⟨_, wrote_packet memory buf buflen _ _ fits room⟩,
      deserializeFilters_eq kind short fits (laid_store _ _ _)⟩

/-- However many filters are asked for, they are refused for want of room and
nothing is written, or all of them are read back in their order. -/
theorem subscribe_round_trip (memory : Nat → Byte) (buf buflen : Nat)
    (dup : Byte) (packetid : BitVec 16)
    (topicFilters : List (MQTTString × Int))
    (oneForm : ∀ topic ∈ topicFilters, topic.1.OneForm)
    (short : ∀ topic ∈ topicFilters, topic.1.text.length < 65536) :
    let topics := topicFilters.map fun topic =>
      (⟨topic.1, some topic.2⟩ : TopicFilter)
    let result := mqttSerializeSubscribe memory buf buflen dup packetid
      topicFilters
    filtersLength topics < 128 ^ 4 →
    if buflen < mqttPacketLen (filtersLength topics) then
      result = (MQTTPACKET_BUFFER_TOO_SHORT, memory)
    else
      (∃ len, Wrote memory buf buflen result len) ∧
        ∃ requested,
          mqttDeserializeSubscribe result.2 buf = (1, some requested) ∧
            requested.Tells result.2 dup packetid topics := by
  intro topics result fits
  apply filters_round_trip SUBSCRIBE true (-1) memory buf buflen dup packetid
    topics
  · intro topic member
    obtain ⟨asked, _, same⟩ := List.mem_map.mp member
    rw [← same]
    rfl
  · intro topic member
    obtain ⟨asked, given, same⟩ := List.mem_map.mp member
    rw [← same]
    exact oneForm asked given
  · intro topic member
    obtain ⟨asked, given, same⟩ := List.mem_map.mp member
    rw [← same]
    exact short asked given
  · exact fits

/-- Two filters are read back. -/
theorem subscribe_round_trip_two :
    ∃ requested,
      mqttDeserializeSubscribe (mqttSerializeSubscribe (fun _ => 0) 0 64 0 9
          [(⟨some [97#8], none⟩, 1), (⟨none, some [98#8, 99#8]⟩, 0)]).2 0 =
        (1, some requested) := by
  have trip := subscribe_round_trip (fun _ => 0) 0 64 0 9
    [(⟨some [97#8], none⟩, 1), (⟨none, some [98#8, 99#8]⟩, 0)] (by decide)
    (by decide)
  dsimp only at trip
  have told := trip (by decide)
  rw [if_neg (by decide)] at told
  obtain ⟨_, requested, read, _⟩ := told
  exact ⟨requested, read⟩

theorem unsubscribe_round_trip (memory : Nat → Byte) (buf buflen : Nat)
    (dup : Byte) (packetid : BitVec 16) (topicFilters : List MQTTString)
    (oneForm : ∀ topic ∈ topicFilters, topic.OneForm)
    (short : ∀ topic ∈ topicFilters, topic.text.length < 65536) :
    let topics := topicFilters.map fun topic =>
      (⟨topic, none⟩ : TopicFilter)
    let result := mqttSerializeUnsubscribe memory buf buflen dup packetid
      topicFilters
    filtersLength topics < 128 ^ 4 →
    if buflen < mqttPacketLen (filtersLength topics) then
      result = (MQTTPACKET_BUFFER_TOO_SHORT, memory)
    else
      (∃ len, Wrote memory buf buflen result len) ∧
        ∃ requested,
          mqttDeserializeUnsubscribe result.2 buf = (1, some requested) ∧
            requested.Tells result.2 dup packetid topics := by
  intro topics result fits
  apply filters_round_trip UNSUBSCRIBE false 0 memory buf buflen dup packetid
    topics
  · intro topic member
    obtain ⟨asked, _, same⟩ := List.mem_map.mp member
    rw [← same]
    rfl
  · intro topic member
    obtain ⟨asked, given, same⟩ := List.mem_map.mp member
    rw [← same]
    exact oneForm asked given
  · intro topic member
    obtain ⟨asked, given, same⟩ := List.mem_map.mp member
    rw [← same]
    exact short asked given
  · exact fits

/-! ### What was granted -/

def mqttSerializeSuback (memory : Nat → Byte) (buf buflen : Nat)
    (packetid : BitVec 16) (grantedQoSs : List Int) : Int × (Nat → Byte) :=
  if buflen < 2 + grantedQoSs.length then (MQTTPACKET_BUFFER_TOO_SHORT, memory)
  else
    let header : MQTTHeader :=
      { type := SUBACK, dup := 0#1, qos := 0#2, retain := 0#1 }
    let out := writeChar ⟨memory, buf⟩ header.byte
    let out := mqttPacketEncode out (2 + grantedQoSs.length)
    let out := writeInt out packetid.toNat
    let out := grantedQoSs.foldl
      (fun out qos => writeChar out (BitVec.ofInt 8 qos)) out
    (out.ptr - buf, out.memory)

/-- The turns of the loop over what was granted: the result and the array. -/
def readGranted (memory : Nat → Byte) (maxcount : Nat) :
    Nat → Nat → Nat → List Byte → Int × List Byte
  | 0, _, _, grantedQoSs => (1, grantedQoSs)
  | turns + 1, curdata, enddata, grantedQoSs =>
      if enddata ≤ curdata then (1, grantedQoSs)
      else if maxcount < grantedQoSs.length then (-1, grantedQoSs)
      else
        readGranted memory maxcount turns (curdata + 1) enddata
          (grantedQoSs ++ [memory curdata])

/-- The result, the identifier, and the array. -/
def mqttDeserializeSuback (memory : Nat → Byte) (buf maxcount : Nat) :
    Int × Option (BitVec 16 × List Byte) :=
  let header := MQTTHeader.ofByte (memory buf)
  if header.type ≠ SUBACK then (0, none)
  else
    let (rc, mylen) := mqttPacketDecodeBuf memory (buf + 1)
    let curdata := buf + 1 + rc
    let enddata := curdata + mylen
    if enddata < curdata + 2 then (rc, none)
    else
      let packetid := BitVec.ofNat 16 (readInt memory curdata)
      let (rc, grantedQoSs) :=
        readGranted memory maxcount mylen (curdata + 2) enddata []
      (rc, some (packetid, grantedQoSs))

def subackHeader : MQTTHeader :=
  { type := SUBACK, dup := 0#1, qos := 0#2, retain := 0#1 }

def subackRest (packetid : BitVec 16) (grantedQoSs : List Int) : List Byte :=
  intBytes packetid.toNat ++ grantedQoSs.map (BitVec.ofInt 8)

theorem writeGranted_eq (grantedQoSs : List Int) (out : Output) :
    grantedQoSs.foldl (fun out qos => writeChar out (BitVec.ofInt 8 qos)) out =
      out.put (grantedQoSs.map (BitVec.ofInt 8)) := by
  induction grantedQoSs generalizing out with
  | nil => exact (put_nil out).symm
  | cons qos rest ih =>
      rw [List.foldl_cons, ih, writeChar_eq, put_put, List.map_cons,
        List.singleton_append]

/-- The array is filled until one entry more than it has room for. -/
theorem readGranted_eq (memory : Nat → Byte) (maxcount turns curdata : Nat)
    (data before : List Byte) (laid : Laid memory curdata data)
    (enough : data.length < turns) (room : before.length ≤ maxcount + 1) :
    readGranted memory maxcount turns curdata (curdata + data.length) before =
      if before.length + data.length ≤ maxcount + 1 then (1, before ++ data)
      else (-1, before ++ data.take (maxcount + 1 - before.length)) := by
  induction data generalizing turns curdata before with
  | nil =>
      cases turns with
      | zero => exact absurd enough (Nat.not_lt_zero _)
      | succ turns =>
          simp only [List.length_nil, Nat.add_zero, List.append_nil]
          rw [if_pos room]
          exact if_pos (Nat.le_refl curdata)
  | cons byte rest ih =>
      obtain ⟨first, others⟩ := (laid_cons_iff _ _ _ _).mp laid
      cases turns with
      | zero => exact absurd enough (Nat.not_lt_zero _)
      | succ turns =>
          rw [List.length_cons] at enough ⊢
          rw [readGranted, if_neg (by omega), first]
          by_cases full : maxcount < before.length
          · rw [if_pos full, if_neg (by omega),
              show maxcount + 1 - before.length = 0 by omega, List.take_zero,
              List.append_nil]
          · have next := ih turns (curdata + 1) (before ++ [byte]) others
              (by omega) (by rw [List.length_append, List.length_singleton]; omega)
            rw [Nat.add_assoc, Nat.add_comm 1, List.length_append,
              List.length_singleton, List.append_assoc, List.append_assoc,
              List.singleton_append, List.singleton_append] at next
            rw [if_neg full, next]
            have count : before.length + 1 + rest.length =
                before.length + (rest.length + 1) := by omega
            have left : maxcount + 1 - before.length =
                maxcount + 1 - (before.length + 1) + 1 := by omega
            rw [count, left, List.take_succ_cons]

/-- What was granted is written if there is room for all but the first bytes of
the packet, so up to five bytes go behind the buffer. It is read back as long as
it is not longer than the array and one entry; of a longer one, so many entries
are read. -/
theorem suback_round_trip (memory : Nat → Byte) (buf buflen maxcount : Nat)
    (packetid : BitVec 16) (grantedQoSs : List Int)
    (fits : 2 + grantedQoSs.length < 128 ^ 4) :
    let result := mqttSerializeSuback memory buf buflen packetid grantedQoSs
    let granted := grantedQoSs.map (BitVec.ofInt 8)
    if buflen < 2 + grantedQoSs.length then
      result = (MQTTPACKET_BUFFER_TOO_SHORT, memory)
    else
      (∃ len, Wrote memory buf (buflen + 5) result len ∧
        2 + grantedQoSs.length + 2 ≤ len) ∧
      mqttDeserializeSuback result.2 buf maxcount =
        if grantedQoSs.length ≤ maxcount + 1 then (1, some (packetid, granted))
        else (-1, some (packetid, granted.take (maxcount + 1))) := by
  intro result granted
  have total : (subackRest packetid grantedQoSs).length =
      2 + grantedQoSs.length := by
    rw [subackRest, List.length_append, length_intBytes, List.length_map]
  have short := Base128.length_spelled_le 3 _ fits
  have some_byte := Base128.length_spelled_pos (2 + grantedQoSs.length)
  by_cases room : buflen < 2 + grantedQoSs.length
  · rw [if_pos room]
    exact if_pos room
  · have written : result = (((packetBytes subackHeader
        (subackRest packetid grantedQoSs)).length : Int),
        store memory buf (packetBytes subackHeader
          (subackRest packetid grantedQoSs))) := by
      change mqttSerializeSuback memory buf buflen packetid grantedQoSs = _
      unfold mqttSerializeSuback
      rw [if_neg room]
      dsimp only
      rw [writeChar_eq, mqttPacketEncode_eq _ _ fits, writeInt_eq,
        writeGranted_eq, put_put, put_put, put_put, put_result, packetBytes,
        total]
      rfl
    have laid : Laid result.2 buf
        (packetBytes subackHeader (subackRest packetid grantedQoSs)) := by
      rw [written]
      exact laid_store _ _ _
    rw [if_neg room]
    constructor
    · refine ⟨_, ⟨congrArg Prod.fst written, Nat.zero_lt_succ _, ?_, ?_⟩, ?_⟩
      · rw [length_packetBytes, total]
        omega
      · intro address outside
        rw [written]
        exact store_outside _ _ _ _ outside
      · rw [length_packetBytes, total]
        omega
    · obtain ⟨first, length, rest⟩ := laid_packet laid (by omega)
      have same : ¬ subackHeader.type ≠ SUBACK := not_not_intro rfl
      obtain ⟨number, entries⟩ := (laid_append_iff _ _ _ _).mp rest
      rw [length_intBytes] at entries
      have read := readGranted_eq result.2 maxcount (2 + grantedQoSs.length) _ _
        [] entries (by rw [List.length_map]; omega) (Nat.zero_le _)
      unfold mqttDeserializeSuback
      rw [first]
      dsimp only
      rw [if_neg same, length]
      dsimp only
      rw [if_neg (by omega), readInt_eq _ _ _ packetid.isLt number,
        BitVec.ofNat_toNat, BitVec.setWidth_eq]
      simp only [total, List.length_map, List.length_nil, Nat.zero_add,
        List.nil_append, Nat.sub_zero] at read ⊢
      rw [← Nat.add_assoc _ 2, read]
      split
      · rfl
      · rfl

/-- Three entries for an array of one: two of them are read. -/
theorem suback_round_trip_three :
    mqttDeserializeSuback
        (mqttSerializeSuback (fun _ => 0) 0 64 9 [1, 2, 0]).2 0 1 =
      (-1, some (9, [1, 2])) := by
  have trip := suback_round_trip (fun _ => 0) 0 64 1 9 [1, 2, 0] (by decide)
  dsimp only at trip
  rw [if_neg (by decide), if_neg (by decide)] at trip
  exact trip.2

end XR872.Mqtt
