/-
The requests and replies of `ping`.

A request and what is received for it share one buffer. What was received is
taken for the reply if two of its fields are right, wherever its header length
puts them.
-/

import XR872.Library.BitView
import XR872.Library.Memory

namespace XR872.Network

open BitView
open Memories

def PING_TO : BitVec 32 := 5000

def PING_DATA_SIZE : BitVec 32 := 100

def PING_IP_HDR_SIZE : BitVec 32 := 40

/-- `sizeof(struct ip_hdr)`. -/
def ipHdrSize : BitVec 32 := 20

/-- `sizeof(struct icmp_echo_hdr)`. -/
def icmpEchoHdrSize : BitVec 32 := 8

def ICMP_ECHO : Byte := 8

/-- `ICMP_ER`, an echo reply. -/
def ICMP_ER : Byte := 0

def lowByte (value : BitVec 16) : Byte := value.setWidth 8

def highByte (value : BitVec 16) : Byte := (value >>> 8).setWidth 8

def htons (value : BitVec 16) : BitVec 16 := lowByte value ++ highByte value

/-! ### What happens -/

/-- What `select` and `recvfrom` find. -/
inductive Arrival where
  | nothing
  | failed
  | datagram (source : BitVec 32) (bytes : List Byte)
deriving DecidableEq

/-- One turn of the wait for a reply, with the ticks that are read behind
`recvfrom` and at the end. -/
structure Turn where
  arrival : Arrival
  recvTicks : BitVec 32
  endTicks : BitVec 32
deriving DecidableEq

def timeElapse (timeStart timeNow : BitVec 32) : BitVec 32 :=
  if timeStart ≤ timeNow then timeNow - timeStart
  else 0xffffffff - timeStart + timeNow

/-- The wait for one reply. Behind its turns there is one more, in which nothing
arrives and the wait is given up. -/
structure Exchange where
  timeStart : BitVec 32
  turns : List Turn
  gaveUp : BitVec 32
  reached : PING_TO ≤ timeElapse timeStart gaveUp

/-- A call: its arguments, the id of the run before it, and what happens to it.
The buffer is at address 0 of the memory. -/
structure PingCall where
  sinAddr : BitVec 32
  count : BitVec 32
  dataLong : BitVec 32
  pingIds : BitVec 16
  opens : Bool
  allocates : Bool
  memory : Nat → Byte
  exchanges : Nat → Exchange

variable (call : PingCall)

/-- `PING_IDs` in this call. -/
def PingCall.ids : BitVec 16 :=
  if call.pingIds + 1 = 0x7FFF then 0x1234 else call.pingIds + 1

def PingCall.requestSize : BitVec 32 :=
  (if call.dataLong ≠ 0xffff then call.dataLong else PING_DATA_SIZE) +
    icmpEchoHdrSize

def PingCall.bufSize : BitVec 32 := call.requestSize + PING_IP_HDR_SIZE

/-- `ping_seq_num` for a request. -/
def seqNum (index : Nat) : BitVec 16 := BitVec.ofNat 16 (index + 1)

/-! ### Requests -/

def echoHeader (chksum ids seq : BitVec 16) : List Byte :=
  [ICMP_ECHO, 0, lowByte chksum, highByte chksum, lowByte ids, highByte ids,
    highByte seq, lowByte seq]

/-- `inet_chksum`, with a length of 16 bits, over the checksum of the port. -/
def inetChksum (lwipChksum : List Byte → BitVec 16) (bytes : List Byte)
    (len : BitVec 32) : BitVec 16 :=
  ~~~ lwipChksum (bytes.take (len.setWidth 16).toNat)

/-- What `generate_ping_echo` stores. -/
def echoRequest (lwipChksum : List Byte → BitVec 16) (len : BitVec 32)
    (ids seq : BitVec 16) : List Byte :=
  let dataLen := len - icmpEchoHdrSize
  let data := (List.range dataLen.toNat).map (BitVec.ofNat 8)
  let chksum := inetChksum lwipChksum (echoHeader 0 ids seq ++ data) len
  echoHeader chksum ids seq ++ data

/-- A request that does not fit the buffer has no outcome. -/
def generatePingEcho (lwipChksum : List Byte → BitVec 16) (memory : Nat → Byte)
    (index : Nat) : Option (Nat → Byte) :=
  let request := echoRequest lwipChksum call.requestSize call.ids (seqNum index)
  if request.length ≤ call.bufSize.toNat then some (store memory 0 request)
  else none

/-! ### Replies -/

/-- The bytes of an arrival that `recvfrom` stores. -/
def PingCall.received (turn : Turn) : List Byte :=
  match turn.arrival with
  | .datagram _ bytes => bytes.take call.bufSize.toNat
  | _ => []

/-- `reply_size`: the -1 of a failure is the largest one. -/
def PingCall.replySize (turn : Turn) : BitVec 32 :=
  match turn.arrival with
  | .failed => 0xffffffff
  | _ => BitVec.ofNat 32 (call.received turn).length

/-- The place of the ICMP header behind an IP header that begins with this
byte. -/
def icmpPlace (first : Byte) : Nat := (first &&& 0x0f).toNat * 4

def fieldAt (memory : Nat → Byte) (place : Nat) : BitVec 16 :=
  memory (place + 1) ++ memory place

/-- What a turn did: the places of the buffer it read, and each tick with the
time it computed from it. -/
structure Observation where
  request : Nat
  turn : Turn
  reads : List Nat
  times : List (BitVec 32 × BitVec 32)
  taken : Bool

def PingCall.Considers (turn : Turn) : Prop :=
  turn.arrival ≠ .nothing ∧ ipHdrSize + icmpEchoHdrSize ≤ call.replySize turn

instance (turn : Turn) : Decidable (call.Considers turn) :=
  inferInstanceAs (Decidable (_ ∧ _))

def elapsedAt (exchange : Exchange) (ticks : BitVec 32) :
    BitVec 32 × BitVec 32 :=
  (ticks, timeElapse exchange.timeStart ticks)

def waitTurn (index : Nat) (memory : Nat → Byte) (turn : Turn) :
    Observation × (Nat → Byte) :=
  let exchange := call.exchanges index
  let memory := store memory 0 (call.received turn)
  if call.Considers turn then
    let pecho := icmpPlace (memory 0)
    let idRight := fieldAt memory (pecho + 4) = call.ids
    let taken := idRight ∧ fieldAt memory (pecho + 6) = htons (seqNum index)
    ({ request := index
       turn := turn
       reads := [0, pecho + 4, pecho + 5] ++
        (if idRight then [pecho + 6, pecho + 7] else [])
       times := elapsedAt exchange turn.recvTicks ::
        (if taken then [] else [elapsedAt exchange turn.endTicks])
       taken := decide taken }, memory)
  else
    ({ request := index
       turn := turn
       reads := []
       times := [elapsedAt exchange turn.endTicks]
       taken := false }, memory)

/-- The turn in which the wait is given up, behind the ones in which something
may arrive. -/
def Exchange.last (exchange : Exchange) : Turn :=
  { arrival := .nothing
    recvTicks := exchange.gaveUp
    endTicks := exchange.gaveUp }

/-- `TimeElapse >= PING_TO` at the end of a turn. -/
def GivesUp (exchange : Exchange) (turn : Turn) : Prop :=
  PING_TO ≤ timeElapse exchange.timeStart turn.endTicks

instance (exchange : Exchange) (turn : Turn) :
    Decidable (GivesUp exchange turn) :=
  inferInstanceAs (Decidable (_ ≤ _))

def waitReply (index : Nat) :
    List Turn → (Nat → Byte) → List Observation × (Nat → Byte)
  | [], memory =>
      let (seen, memory) :=
        waitTurn call index memory (call.exchanges index).last
      ([seen], memory)
  | turn :: later, memory =>
      let (seen, memory) := waitTurn call index memory turn
      if seen.taken ∨ GivesUp (call.exchanges index) turn then ([seen], memory)
      else
        let (others, memory) := waitReply index later memory
        (seen :: others, memory)

/-- The loop over the requests: `ping_pass`, and what the turns did. -/
def pingLoop (lwipChksum : List Byte → BitVec 16) :
    Nat → Nat → (Nat → Byte) → BitVec 32 →
      Option (BitVec 32 × List Observation)
  | 0, _, _, pingPass => some (pingPass, [])
  | requests + 1, index, memory, pingPass => do
      let memory ← generatePingEcho call lwipChksum memory index
      let (seen, memory) :=
        waitReply call index (call.exchanges index).turns memory
      let pingPass :=
        if seen.any Observation.taken then pingPass + 1 else pingPass
      let (pingPass, others) ←
        pingLoop lwipChksum requests (index + 1) memory pingPass
      some (pingPass, seen ++ others)

structure Pinged where
  value : Int
  seen : List Observation
  opened : Bool
  closed : Bool

def ping (lwipChksum : List Byte → BitVec 16) : Option Pinged :=
  if ¬ call.opens then
    some { value := -1, seen := [], opened := false, closed := false }
  else if ¬ call.allocates then
    some { value := -1, seen := [], opened := true, closed := false }
  else do
    let (pingPass, seen) ←
      pingLoop call lwipChksum call.count.toNat 0 call.memory 0
    some
      { value := if 0 < pingPass.toInt then pingPass.toInt else -1
        seen := seen
        opened := true
        closed := true }

end XR872.Network
