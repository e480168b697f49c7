/-
Packets cut out of the bytes that a connection brings.

A packet whose end does not come in time is dropped, and its end is discarded
before the next one is read.
-/

import XR872.Mqtt.Publish

namespace XR872.Mqtt

open BitView
open Memories

/-! ### The connection -/

/-- What a read of the network comes to: so many bytes in time, or an end that
loses those that came before it. -/
inductive Arrival
  | bytes (count : Nat)
  | disconnected (lost : Nat)
  | failed (lost : Nat)
deriving DecidableEq

/-- The result of `mqttread`, the bytes that are put into the buffer, and those
that are still to come. -/
def mqttread (coming : List Byte) (arrival : Arrival) (len : Nat) :
    Int × List Byte × List Byte :=
  match arrival with
  | .bytes count =>
      let data := coming.take (min count len)
      (data.length, data, coming.drop (min count len))
  | .disconnected lost =>
      (-1, coming.take (min lost len), coming.drop (min lost len))
  | .failed lost =>
      (-2, coming.take (min lost len), coming.drop (min lost len))

/-- What the reads of one packet come to. After the last of `discards` the time
is over. -/
structure Arrivals where
  discards : List Arrival
  header : Arrival
  length : Nat → Arrival
  body : Arrival

/-- What the reading uses of `struct Client`, with the memory around its buffer
and the bytes that are still to come. -/
structure Receiver where
  memory : Nat → Byte
  readbuf : Nat
  remainPktfragLen : Nat
  coming : List Byte

def FAILURE : Int := -1

/-! ### Reading a packet -/

/-- The loop that discards what is left of a packet. -/
def discardFragment : List Arrival → Receiver → Receiver
  | [], client => client
  | arrival :: arrivals, client =>
      if client.remainPktfragLen = 0 then client
      else
        let (readlen, data, coming) :=
          mqttread client.coming arrival client.remainPktfragLen
        discardFragment arrivals
          { client with
            memory := store client.memory client.readbuf data
            remainPktfragLen := (client.remainPktfragLen - readlen).toNat
            coming := coming }

/-- `mqttread` of one byte, for `decodePacket`. -/
def readLengthByte (arrivals : Nat → Arrival) (source : List Byte × Nat) :
    Option Byte × (List Byte × Nat) :=
  let (readlen, data, coming) := mqttread source.1 (arrivals source.2) 1
  (if readlen = 1 then data.head? else none, (coming, source.2 + 1))

/-- The value and the bytes that are still to come. -/
def decodePacket (coming : List Byte) (arrivals : Nat → Arrival) :
    Nat × List Byte :=
  let (_, value, source) := mqttPacketDecode (readLengthByte arrivals) (coming, 0)
  (value, source.1)

/-- The part of `readPacket` behind the first byte. -/
def readRest (client : Receiver) (arrivals : Arrivals) : Int × Receiver :=
  let (remLen, coming) := decodePacket client.coming arrivals.length
  let out := mqttPacketEncode ⟨client.memory, client.readbuf + 1⟩ remLen
  let type := (MQTTHeader.ofByte (out.memory client.readbuf)).type
  if remLen = 0 then
    (type.toNat, { client with memory := out.memory, coming := coming })
  else
    let (readlen, data, coming) := mqttread coming arrivals.body remLen
    let memory := store out.memory out.ptr data
    let client := { client with memory := memory, coming := coming }
    if readlen ≠ remLen then
      (FAILURE, { client with remainPktfragLen := (remLen - readlen).toNat })
    else ((MQTTHeader.ofByte (memory client.readbuf)).type.toNat, client)

/-- The type of the packet, or `FAILURE`. -/
def readPacket (client : Receiver) (arrivals : Arrivals) : Int × Receiver :=
  let client := discardFragment arrivals.discards client
  if client.remainPktfragLen ≠ 0 then (FAILURE, client)
  else
    let (readlen, data, coming) := mqttread client.coming arrivals.header 1
    let client := { client with
      memory := store client.memory client.readbuf data
      coming := coming }
    if readlen ≠ 1 then (FAILURE, client) else readRest client arrivals

/-! ### A connection in step -/

/-- A packet as it comes over the connection. -/
structure Packet where
  header : MQTTHeader
  rest : List Byte
  short : rest.length < 128 ^ 4

namespace Packet

variable (packet : Packet)

def bytes : List Byte := packetBytes packet.header packet.rest

/-- The size of the packet. -/
def size : Nat := packet.bytes.length

theorem size_eq : packet.size =
    1 + (Base128.spelled packet.rest.length).length + packet.rest.length :=
  length_packetBytes packet.header packet.rest

end Packet

/-- The connection stays, and the length of a packet comes with its first
byte. -/
structure Arrivals.Prompt (arrivals : Arrivals) : Prop where
  discards : ∀ arrival ∈ arrivals.discards, ∃ count, arrival = .bytes count
  header : ∃ count, arrivals.header = .bytes count
  length : ∀ index, ∃ count, arrivals.length index = .bytes (count + 1)
  body : ∃ count, arrivals.body = .bytes count

/-- What is to come begins with the rest of the packet that was dropped; whole
packets follow that fit the buffer. -/
structure InStep (size : Nat) (client : Receiver) (packets : List Packet) :
    Prop where
  fragment : ∃ fragment, client.coming =
    fragment ++ packets.flatMap Packet.bytes ∧
    fragment.length = client.remainPktfragLen
  narrow : client.remainPktfragLen ≤ size
  fits : ∀ packet ∈ packets, packet.size ≤ size

theorem mqttread_bytes (coming : List Byte) (count len : Nat) :
    mqttread coming (.bytes count) len =
      (((coming.take (min count len)).length : Int),
        coming.take (min count len), coming.drop (min count len)) := rfl

theorem discardFragment_inStep {size : Nat} (arrivals : List Arrival)
    (client : Receiver) {packets : List Packet}
    (inStep : InStep size client packets)
    (open_ : ∀ arrival ∈ arrivals, ∃ count, arrival = .bytes count) :
    InStep size (discardFragment arrivals client) packets ∧
      (discardFragment arrivals client).readbuf = client.readbuf ∧
      ∀ address, address < client.readbuf ∨ client.readbuf + size ≤ address →
        (discardFragment arrivals client).memory address =
          client.memory address := by
  induction arrivals generalizing client with
  | nil => exact ⟨inStep, rfl, fun _ _ => rfl⟩
  | cons arrival rest ih =>
      obtain ⟨⟨count, first⟩, others⟩ := List.forall_mem_cons.mp open_
      rw [discardFragment]
      by_cases done : client.remainPktfragLen = 0
      · rw [if_pos done]
        exact ⟨inStep, rfl, fun _ _ => rfl⟩
      · obtain ⟨⟨fragment, coming, left⟩, narrow, fits⟩ := inStep
        have short : min count client.remainPktfragLen ≤ fragment.length := by
          rw [left]
          exact Nat.min_le_right _ _
        rw [if_neg done, first, mqttread_bytes, coming,
          List.take_append_of_le_length short,
          List.drop_append_of_le_length short, List.length_take,
          Nat.min_eq_left short]
        dsimp only
        have kept : InStep size
            { client with
              memory := store client.memory client.readbuf
                (fragment.take (min count client.remainPktfragLen))
              remainPktfragLen := ((client.remainPktfragLen : Int) -
                (min count client.remainPktfragLen : Nat)).toNat
              coming := fragment.drop (min count client.remainPktfragLen) ++
                packets.flatMap Packet.bytes } packets := by
          refine ⟨⟨_, rfl, ?_⟩, ?_, fits⟩
          · rw [List.length_drop]
            dsimp only
            omega
          · dsimp only
            omega
        obtain ⟨after, place, outside⟩ := ih _ kept others
        refine ⟨after, place, ?_⟩
        intro address away
        rw [outside address away]
        apply store_outside
        rw [List.length_take]
        omega

theorem readLengthByte_delivers {arrivals : Nat → Arrival}
    (prompt : ∀ index, ∃ count, arrivals index = .bytes (count + 1))
    (data rest : List Byte) (index : Nat) :
    Delivers (readLengthByte arrivals) (data ++ rest, index) data
      (rest, index + data.length) := by
  induction data generalizing index with
  | nil => rfl
  | cons byte others ih =>
      obtain ⟨count, there⟩ := prompt index
      have one : min (count + 1) 1 = 1 := by omega
      refine ⟨(others ++ rest, index + 1), ?_, ?_⟩
      · unfold readLengthByte
        rw [there, mqttread_bytes, one]
        rfl
      · have next := ih (index + 1)
        rw [Nat.add_assoc, Nat.add_comm 1] at next
        exact next

theorem decodePacket_spelled {arrivals : Nat → Arrival}
    (prompt : ∀ index, ∃ count, arrivals index = .bytes (count + 1))
    (number : Nat) (fits : number < 128 ^ 4) (rest : List Byte) :
    decodePacket (Base128.spelled number ++ rest) arrivals = (number, rest) := by
  unfold decodePacket mqttPacketDecode
  rw [show MAX_NO_OF_REMAINING_LENGTH_BYTES = 3 + 1 from rfl,
    decodeFrom_spelled _ _ _ _ _ _ _ _ fits
      (readLengthByte_delivers prompt _ rest 0), Nat.zero_add, Nat.zero_add,
    Nat.mul_one]

inductive PacketRead (size readbuf : Nat) (packets : List Packet)
    (result : Int × Receiver) : Prop
  | waiting (failure : result.1 = FAILURE)
      (inStep : InStep size result.2 packets)
  | dropped (packet : Packet) (rest : List Packet)
      (next : packets = packet :: rest) (failure : result.1 = FAILURE)
      (inStep : InStep size result.2 rest)
  | read (packet : Packet) (rest : List Packet)
      (next : packets = packet :: rest)
      (type : result.1 = packet.header.type.toNat)
      (laid : Laid result.2.memory readbuf packet.bytes)
      (inStep : InStep size result.2 rest)

theorem readRest_inStep {size : Nat} (client : Receiver) {packet : Packet}
    {packets : List Packet} {arrivals : Arrivals}
    (coming : client.coming = Base128.spelled packet.rest.length ++
      (packet.rest ++ packets.flatMap Packet.bytes))
    (header : client.memory client.readbuf = packet.header.byte)
    (whole : client.remainPktfragLen = 0)
    (fits : ∀ other ∈ packet :: packets, other.size ≤ size)
    (prompt : arrivals.Prompt) :
    PacketRead size client.readbuf (packet :: packets) (readRest client arrivals) ∧
      (readRest client arrivals).2.readbuf = client.readbuf ∧
      ∀ address, address < client.readbuf ∨ client.readbuf + size ≤ address →
        (readRest client arrivals).2.memory address =
          client.memory address := by
  obtain ⟨narrow, others⟩ := List.forall_mem_cons.mp fits
  rw [packet.size_eq] at narrow
  have short := packet.short
  have first : Laid (store client.memory (client.readbuf + 1)
      (Base128.spelled packet.rest.length)) client.readbuf
        (packet.header.byte :: Base128.spelled packet.rest.length) := by
    rw [laid_cons_iff, store_before _ _ _ _ (Nat.lt_succ_self _)]
    exact ⟨header, laid_store _ _ _⟩
  unfold readRest
  rw [coming, decodePacket_spelled prompt.length _ short]
  dsimp only
  rw [mqttPacketEncode_eq _ _ short]
  unfold Output.put
  dsimp only
  rw [store_before _ _ _ client.readbuf (Nat.lt_succ_self _), header,
    MQTTHeader.ofByte_byte]
  by_cases empty : packet.rest.length = 0
  · have nothing : packet.rest = [] := List.eq_nil_of_length_eq_zero empty
    rw [if_pos empty]
    refine ⟨.read packet packets rfl rfl ?_ ?_, rfl, ?_⟩
    · unfold Packet.bytes packetBytes
      rw [nothing, List.append_nil, ← nothing]
      exact first
    · refine ⟨⟨[], ?_, whole.symm⟩, ?_, others⟩
      · dsimp only
        rw [nothing]
      · dsimp only
        omega
    · intro address away
      exact store_outside _ _ _ _ (by omega)
  · obtain ⟨count, body⟩ := prompt.body
    have room : min count packet.rest.length ≤ packet.rest.length :=
      Nat.min_le_right _ _
    rw [if_neg empty, body, mqttread_bytes,
      List.take_append_of_le_length room, List.drop_append_of_le_length room,
      List.length_take, Nat.min_eq_left room]
    dsimp only
    have outer : ∀ address, address < client.readbuf ∨
        client.readbuf + size ≤ address →
        store (store client.memory (client.readbuf + 1)
            (Base128.spelled packet.rest.length))
          (client.readbuf + 1 + (Base128.spelled packet.rest.length).length)
          (packet.rest.take (min count packet.rest.length)) address =
        client.memory address := by
      intro address away
      rw [store_outside, store_outside]
      · omega
      · rw [List.length_take]
        omega
    by_cases all : packet.rest.length ≤ count
    · have got : min count packet.rest.length = packet.rest.length := by omega
      rw [got, List.take_length] at outer ⊢
      rw [List.drop_length, if_neg (not_not_intro rfl)]
      have laid : Laid (store (store client.memory (client.readbuf + 1)
            (Base128.spelled packet.rest.length))
          (client.readbuf + 1 + (Base128.spelled packet.rest.length).length)
          packet.rest) client.readbuf packet.bytes := by
        change Laid _ _ ((packet.header.byte ::
          Base128.spelled packet.rest.length) ++ packet.rest)
        rw [laid_append_iff, List.length_cons]
        constructor
        · apply first.store
          left
          rw [List.length_cons]
          omega
        · rw [Nat.add_assoc, Nat.add_comm 1]
          exact laid_store _ _ _
      have type : store (store client.memory (client.readbuf + 1)
            (Base128.spelled packet.rest.length))
          (client.readbuf + 1 + (Base128.spelled packet.rest.length).length)
          packet.rest client.readbuf = packet.header.byte :=
        ((laid_cons_iff _ _ _ _).mp laid).1
      rw [type, MQTTHeader.ofByte_byte]
      refine ⟨.read packet packets rfl rfl laid ?_, rfl, outer⟩
      refine ⟨⟨[], rfl, whole.symm⟩, ?_, others⟩
      dsimp only
      omega
    · have got : min count packet.rest.length = count := by omega
      rw [got] at outer ⊢
      have less : (count : Int) ≠ (packet.rest.length : Nat) := by omega
      rw [if_pos less]
      refine ⟨.dropped packet packets rfl rfl ?_, rfl, outer⟩
      refine ⟨⟨_, rfl, ?_⟩, ?_, others⟩
      · rw [List.length_drop]
        dsimp only
        omega
      · dsimp only
        omega

theorem readPacket_inStep {size : Nat} {client : Receiver}
    {packets : List Packet} {arrivals : Arrivals}
    (inStep : InStep size client packets) (prompt : arrivals.Prompt) :
    PacketRead size client.readbuf packets (readPacket client arrivals) ∧
      (readPacket client arrivals).2.readbuf = client.readbuf ∧
      ∀ address, address < client.readbuf ∨ client.readbuf + size ≤ address →
        (readPacket client arrivals).2.memory address =
          client.memory address := by
  obtain ⟨inStep, place, outside⟩ :=
    discardFragment_inStep arrivals.discards client inStep prompt.discards
  unfold readPacket
  generalize discardFragment arrivals.discards client = begun at *
  dsimp only
  by_cases done : begun.remainPktfragLen = 0
  · obtain ⟨⟨fragment, coming, left⟩, narrow, fits⟩ := inStep
    have none_left : fragment = [] :=
      List.eq_nil_of_length_eq_zero (left.trans done)
    rw [none_left, List.nil_append] at coming
    obtain ⟨count, header⟩ := prompt.header
    rw [if_neg (not_not_intro done), header, mqttread_bytes]
    dsimp only
    cases packets with
    | nil =>
        have empty : begun.coming = [] := coming
        rw [empty, List.take_nil, List.drop_nil, store_nil, if_pos (by decide)]
        exact ⟨.waiting rfl ⟨⟨[], rfl, done.symm⟩, narrow, fits⟩, place, outside⟩
    | cons packet rest =>
        cases count with
        | zero =>
            rw [Nat.zero_min, List.take_zero, List.drop_zero, store_nil,
              if_pos (by decide)]
            exact ⟨.waiting rfl ⟨⟨[], coming, done.symm⟩, narrow, fits⟩, place,
              outside⟩
        | succ count =>
            have one : min (count + 1) 1 = 1 := by omega
            have bytes : begun.coming = packet.header.byte ::
                (Base128.spelled packet.rest.length ++
                  (packet.rest ++ rest.flatMap Packet.bytes)) := by
              rw [coming, List.flatMap_cons]
              unfold Packet.bytes packetBytes
              rw [List.cons_append, List.append_assoc]
            have narrowed := fits packet List.mem_cons_self
            rw [packet.size_eq] at narrowed
            rw [one, bytes, List.take_succ_cons, List.take_zero,
              List.drop_succ_cons, List.drop_zero, List.length_singleton, Nat.cast_one,
              if_neg (not_not_intro rfl)]
            obtain ⟨read, same, frame⟩ := readRest_inStep
              { begun with
                memory := store begun.memory begun.readbuf [packet.header.byte]
                coming := Base128.spelled packet.rest.length ++
                  (packet.rest ++ rest.flatMap Packet.bytes) }
              rfl (store_inside _ _ _ 0) done fits prompt
            refine ⟨?_, same.trans place, ?_⟩
            · rw [← place]
              exact read
            · intro address away
              rw [← outside address away, frame address (by
                dsimp only
                rw [place]
                exact away)]
              apply store_outside
              rw [place, List.length_singleton]
              omega
  · rw [if_pos done]
    exact ⟨.waiting rfl inStep, place, outside⟩

/-! ### Whole runs -/

/-- The results of one call after the other. -/
def readPackets : Receiver → List Arrivals → List (Int × Receiver)
  | _, [] => []
  | client, arrivals :: calls =>
      let result := readPacket client arrivals
      result :: readPackets result.2 calls

/-- The packet stands in the buffer, and its type is the result. -/
def Shown (readbuf : Nat) (result : Int × Receiver) (packet : Packet) : Prop :=
  result.1 = packet.header.type.toNat ∧
    Laid result.2.memory readbuf packet.bytes

/-- Whatever comes too late, the packets that are read are packets that were
sent, whole, in their order and none of them twice; nothing is written beside
the buffer. -/
theorem packets_in_step (size : Nat) (client : Receiver) (packets : List Packet)
    (calls : List Arrivals) (inStep : InStep size client packets)
    (prompt : ∀ arrivals ∈ calls, arrivals.Prompt) :
    (∃ shown, shown.Sublist packets ∧
      List.Forall₂ (Shown client.readbuf)
        ((readPackets client calls).filter fun result => result.1 ≠ FAILURE)
        shown) ∧
      ∀ result ∈ readPackets client calls, ∀ address,
        address < client.readbuf ∨ client.readbuf + size ≤ address →
          result.2.memory address = client.memory address := by
  induction calls generalizing client packets with
  | nil =>
      exact ⟨⟨[], List.nil_sublist packets, List.Forall₂.nil⟩,
        fun _ member => absurd member List.not_mem_nil⟩
  | cons arrivals calls ih =>
      obtain ⟨first, others⟩ := List.forall_mem_cons.mp prompt
      obtain ⟨read, place, outside⟩ := readPacket_inStep inStep first
      have later (left : List Packet)
          (kept : InStep size (readPacket client arrivals).2 left) :=
        ih (readPacket client arrivals).2 left kept others
      rw [place] at later
      have frame (left : List Packet)
          (kept : InStep size (readPacket client arrivals).2 left) :
          ∀ result ∈ readPackets client (arrivals :: calls), ∀ address,
            address < client.readbuf ∨ client.readbuf + size ≤ address →
              result.2.memory address = client.memory address := by
        intro result member address away
        rw [readPackets, List.mem_cons] at member
        cases member with
        | inl now =>
            rw [now]
            exact outside address away
        | inr after =>
            rw [(later left kept).2 result after address away]
            exact outside address away
      rw [readPackets]
      cases read with
      | waiting failure kept =>
          obtain ⟨shown, sublist, told⟩ := (later packets kept).1
          refine ⟨⟨shown, sublist, ?_⟩, frame packets kept⟩
          rw [List.filter_cons_of_neg (by simp [failure])]
          exact told
      | dropped packet rest next failure kept =>
          obtain ⟨shown, sublist, told⟩ := (later rest kept).1
          refine ⟨⟨shown, ?_, ?_⟩, frame rest kept⟩
          · rw [next]
            exact sublist.cons packet
          · rw [List.filter_cons_of_neg (by simp [failure])]
            exact told
      | read packet rest next type laid kept =>
          obtain ⟨shown, sublist, told⟩ := (later rest kept).1
          have good : (readPacket client arrivals).1 ≠ FAILURE := by
            rw [type, FAILURE]
            omega
          refine ⟨⟨packet :: shown, ?_, ?_⟩, frame rest kept⟩
          · rw [next]
            exact sublist.cons_cons packet
          · rw [List.filter_cons_of_pos (by simp [good])]
            exact List.Forall₂.cons ⟨type, laid⟩ told

/-- Two messages, of which the first comes too late. -/
def twoMessages : List Packet :=
  [⟨publishHeader 0 0 0, stringBytes [97] ++ [1, 2, 3], by decide⟩,
    ⟨publishHeader 0 0 0, stringBytes [98] ++ [4], by decide⟩]

/-- Only a byte of what is behind the length comes in time, then all of it. -/
def lateArrivals : List Arrivals :=
  [⟨[], .bytes 1, fun _ => .bytes 1, .bytes 1⟩,
    ⟨[.bytes 2, .bytes 9], .bytes 1, fun _ => .bytes 1, .bytes 9⟩]

theorem twoMessages_fit : ∀ packet ∈ twoMessages, packet.size ≤ 16 := by
  intro packet member
  rw [twoMessages, List.mem_cons, List.mem_singleton] at member
  cases member with
  | inl first =>
      rw [first, Packet.size_eq, Base128.spelled_small _ (by decide)]
      decide
  | inr second =>
      rw [second, Packet.size_eq, Base128.spelled_small _ (by decide)]
      decide

theorem lateArrivals_prompt : ∀ arrivals ∈ lateArrivals, arrivals.Prompt := by
  intro arrivals member
  rw [lateArrivals, List.mem_cons, List.mem_singleton] at member
  cases member with
  | inl first =>
      rw [first]
      exact ⟨by simp, ⟨1, rfl⟩, fun _ => ⟨0, rfl⟩, ⟨1, rfl⟩⟩
  | inr second =>
      rw [second]
      exact ⟨by simp, ⟨1, rfl⟩, fun _ => ⟨0, rfl⟩, ⟨9, rfl⟩⟩

theorem packets_in_step_late :
    ∃ shown : List Packet, shown.Sublist twoMessages ∧
      List.Forall₂ (Shown 32)
        ((readPackets ⟨fun _ => 0, 32, 0, twoMessages.flatMap Packet.bytes⟩
          lateArrivals).filter fun result => result.1 ≠ FAILURE) shown :=
  (packets_in_step 16 ⟨fun _ => 0, 32, 0, twoMessages.flatMap Packet.bytes⟩
    twoMessages lateArrivals ⟨⟨[], rfl, rfl⟩, Nat.zero_le _, twoMessages_fit⟩
    lateArrivals_prompt).1

end XR872.Mqtt
