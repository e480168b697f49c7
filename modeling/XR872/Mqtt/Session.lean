/-
What the handlers and the broker see of a session.

Whatever comes too late, each call and each answer belongs to a packet that the
broker sent.
-/

import XR872.Mqtt.Client

namespace XR872.Mqtt

open BitView
open Memories

/-! ### What goes out -/

theorem sendPacketFrom_wire (memory : Nat → Byte) (buf length : Nat)
    (writes : List Int) (sent : Nat) (near : sent ≤ 2 * length - 1) :
    ∃ count, (sendPacketFrom memory buf length writes sent
        (load memory buf sent)).2 = load memory buf count ∧
      count ≤ 2 * length - 1 ∧
      ((sendPacketFrom memory buf length writes sent
        (load memory buf sent)).1 = SUCCESS ↔ count = length) := by
  have ended : ∀ reached, reached ≤ 2 * length - 1 →
      ∃ count, load memory buf reached = load memory buf count ∧
        count ≤ 2 * length - 1 ∧
        ((if reached = length then SUCCESS else FAILURE) = SUCCESS ↔
          count = length) := by
    intro reached within
    refine ⟨reached, rfl, within, ?_⟩
    by_cases all : reached = length
    · rw [if_pos all]
      exact iff_of_true rfl all
    · rw [if_neg all]
      exact iff_of_false (by decide) all
  induction writes generalizing sent with
  | nil => exact ended sent near
  | cons rc writes ih =>
      rw [sendPacketFrom]
      by_cases more : sent < length
      · rw [if_pos more]
        by_cases failed : rc < 0
        · rw [if_pos failed]
          have unsent : FAILURE ≠ SUCCESS := by decide
          exact ⟨sent, rfl, near, iff_of_false unsent (by omega)⟩
        · rw [if_neg failed]
          dsimp only
          rw [← load_append]
          have bounded : min rc.toNat length ≤ length := Nat.min_le_right _ _
          exact ih (sent + min rc.toNat length) (by omega)
      · rw [if_neg more]
        exact ended sent near

/-- What goes out is the buffer from its beginning on. It is the packet if and
only if the result says so; if not all was taken at once, bytes from behind the
packet go out. -/
theorem sendPacket_wire (client : Client) (length : Nat) (writes : List Int) :
    ∃ wire count, (sendPacket client length writes).2.log = client.log ++
        [.sent (load client.receiver.memory client.buf length)
          (sendPacket client length writes).1 wire] ∧
      wire = load client.receiver.memory client.buf count ∧
      count ≤ 2 * length - 1 ∧
      ((sendPacket client length writes).1 = SUCCESS ↔ count = length) := by
  obtain ⟨count, wire, within, success⟩ := sendPacketFrom_wire
    client.receiver.memory client.buf length writes 0 (Nat.zero_le _)
  exact ⟨_, count, rfl, wire, within, success⟩

/-! ### What the broker sends -/

/-- A message that fits a packet. -/
structure Message where
  dup : Byte
  qos : Nat
  retained : Byte
  id : BitVec 16
  topic : List Byte
  payload : List Byte
  served : qos < 3
  short : topic.length < 65536
  fits : (publishRest qos id topic payload).length < 128 ^ 4

inductive Item
  | message (message : Message)
  /-- `PUBREC` or `PUBREL`. -/
  | release (header : MQTTHeader) (id : BitVec 16)
      (type : header.type = PUBREC ∨ header.type = PUBREL)
  | other (packet : Packet) (publish : packet.header.type ≠ PUBLISH)
      (rec : packet.header.type ≠ PUBREC) (rel : packet.header.type ≠ PUBREL)

namespace Item

def packet : Item → Packet
  | .message given =>
      ⟨publishHeader given.dup given.qos given.retained,
        publishRest given.qos given.id given.topic given.payload,
        given.fits⟩
  | .release header id _ =>
      ⟨header, intBytes id.toNat, by rw [length_intBytes]; decide⟩
  | .other packet _ _ _ => packet

/-- The calls that a packet leads to. -/
def calls (handlersFor : List Byte → List Nat) : Item → List Event
  | .message given =>
      (handlersFor given.topic).map fun fp =>
        .called fp given.topic given.payload given.payload.length
  | _ => []

end Item

def ackHeader (type : BitVec 4) : MQTTHeader :=
  { type := type, dup := 0#1, qos := if type = PUBREL then 1#2 else 0#2,
    retain := 0#1 }

def ackBytes (type : BitVec 4) (id : BitVec 16) : List Byte :=
  packetBytes (ackHeader type) (intBytes id.toNat)

/-- The answer that a packet calls for. -/
def Item.owed : Item → List (List Byte)
  | .message given =>
      if given.qos = 0 then []
      else if given.qos = 1 then [ackBytes PUBACK given.id]
      else [ackBytes PUBREC given.id]
  | .release header id _ =>
      [ackBytes (if header.type = PUBREC then PUBREL else PUBCOMP) id]
  | .other _ _ _ _ => []

def pingreqBytes : List Byte := packetBytes ⟨PINGREQ, 0#1, 0#2, 0#1⟩ []

def callOf : Event → Option Event
  | .called fp topic payload payloadlen =>
      some (.called fp topic payload payloadlen)
  | .sent _ _ _ => none

def callsOf (log : List Event) : List Event := log.filterMap callOf

def answerOf : Event → Option (List Byte)
  | .called _ _ _ _ => none
  | .sent packet rc wire =>
      if rc = SUCCESS ∧ packet ≠ pingreqBytes then some wire else none

/-- What went out, but for pings. -/
def answersOf (log : List Event) : List (List Byte) := log.filterMap answerOf

structure Kept (client after : Client) : Prop where
  readbuf : after.receiver.readbuf = client.receiver.readbuf
  fragment : after.receiver.remainPktfragLen = client.receiver.remainPktfragLen
  coming : after.receiver.coming = client.receiver.coming
  messageHandlers : after.messageHandlers = client.messageHandlers
  defaultMessageHandler :
    after.defaultMessageHandler = client.defaultMessageHandler

theorem Kept.refl (client : Client) : Kept client client :=
  ⟨rfl, rfl, rfl, rfl, rfl⟩

theorem Kept.trans {client middle after : Client} (first : Kept client middle)
    (second : Kept middle after) : Kept client after :=
  ⟨second.readbuf.trans first.readbuf, second.fragment.trans first.fragment,
    second.coming.trans first.coming,
    second.messageHandlers.trans first.messageHandlers,
    second.defaultMessageHandler.trans first.defaultMessageHandler⟩

theorem Kept.inStep {client after : Client} {size : Nat} {packets : List Packet}
    (kept : Kept client after) (inStep : InStep size client.receiver packets) :
    InStep size after.receiver packets := by
  obtain ⟨⟨fragment, coming, left⟩, narrow, fits⟩ := inStep
  exact ⟨⟨fragment, kept.coming.trans coming, left.trans kept.fragment.symm⟩,
    kept.fragment.symm ▸ narrow, fits⟩

/-- The functions that a client calls for a topic. -/
def Client.handlersFor (client : Client) (topicName : List Byte) : List Nat :=
  Mqtt.handlersFor client.messageHandlers client.defaultMessageHandler topicName

theorem Kept.handlersFor {client after : Client} (kept : Kept client after) :
    after.handlersFor = client.handlersFor := by
  funext topicName
  unfold Client.handlersFor
  rw [kept.messageHandlers, kept.defaultMessageHandler]

structure Answered (client after : Client) (item : Item) : Prop where
  kept : Kept client after
  calls : callsOf after.log =
    callsOf client.log ++ item.calls client.handlersFor
  answers : ∃ given, answersOf after.log = answersOf client.log ++ given ∧
    given.Sublist item.owed

structure Progress (size : Nat) (items : List Item) (client after : Client)
    (got left : List Item) : Prop where
  order : (got ++ left).Sublist items
  inStep : InStep size after.receiver (left.map Item.packet)
  handlersFor : after.handlersFor = client.handlersFor
  calls : callsOf after.log =
    callsOf client.log ++ got.flatMap fun item => item.calls client.handlersFor
  answers : ∃ given, answersOf after.log = answersOf client.log ++ given ∧
    given.Sublist (got.flatMap Item.owed)

theorem Progress.trans {size : Nat} {items left later : List Item}
    {client middle after : Client} {got more : List Item}
    (first : Progress size items client middle got left)
    (second : Progress size left middle after more later) :
    Progress size items client after (got ++ more) later := by
  obtain ⟨given, firstAnswers, firstOwed⟩ := first.answers
  obtain ⟨others, secondAnswers, secondOwed⟩ := second.answers
  constructor
  · rw [List.append_assoc]
    exact (second.order.append_left got).trans first.order
  · exact second.inStep
  · exact second.handlersFor.trans first.handlersFor
  · rw [second.calls, first.calls, first.handlersFor, List.flatMap_append,
      List.append_assoc]
  · refine ⟨given ++ others, ?_, ?_⟩
    · rw [secondAnswers, firstAnswers, List.append_assoc]
    · rw [List.flatMap_append]
      exact firstOwed.append secondOwed

/-- One cycle after the other. -/
def cycles : Client → List Surroundings → Option Client
  | client, [] => some client
  | client, around :: rest =>
      (cycle client around).bind fun result => cycles result.2 rest

end XR872.Mqtt
