/-
The DHCP server: its table of leases, and what it answers.

The clock and the probes for an address are read anew each time; a state counts
how often.
-/

import XR872.Library.Slots
import XR872.Network.DhcpOptions

namespace XR872.Network

open BitView
open Memories
open TaggedFields

/-- `struct dhcpOfferedAddr`. -/
structure DhcpOfferedAddr where
  chaddr : Fin 16 → Byte
  yiaddr : BitVec 32
  expires : BitVec 32
deriving DecidableEq

def blankChaddr : Fin 16 → Byte := fun _ => 0

def blankLease : DhcpOfferedAddr := ⟨blankChaddr, 0, 0⟩

/-- What the code reads of `struct server_config_t`. A last address of
`255.255.255.255` is left out: no address is beyond it. The options are those of
the table. -/
structure DhcpConfig where
  server : BitVec 32
  start : BitVec 32
  last : BitVec 32
  options : List Field
  lease : BitVec 32
  maxLeases : Nat
  declineTime : BitVec 32
  conflictTime : BitVec 32
  offerTime : BitVec 32
  minLease : BitVec 32
  siaddr : BitVec 32
  sname : Option (List Byte)
  bootFile : Option (List Byte)
  bounded : (ntohl last).toNat + 1 < 2 ^ 32
  plain : ∀ field ∈ options, Plain field

/-- What each reading of the clock and each probe gives (`true` where somebody
has the address), the addresses of the interface, and what is behind a message
in the memory. -/
structure DhcpSurroundings where
  time : Nat → BitVec 32
  arpping : Nat → BitVec 32 → Bool
  netmask : BitVec 32
  gw : BitVec 32
  ipAddr : BitVec 32
  behind : Nat → Byte

structure DhcpServer where
  leases : Nat → DhcpOfferedAddr
  ticks : Nat
  probes : Nat
  sent : List DhcpMessage

namespace DhcpServer

/-- A reading of the clock. -/
def tick (state : DhcpServer) : DhcpServer :=
  { state with ticks := state.ticks + 1 }

def setLease (state : DhcpServer) (place : Nat) (lease : DhcpOfferedAddr) :
    DhcpServer :=
  { state with leases := Function.update state.leases place lease }

end DhcpServer

variable (config : DhcpConfig) (around : DhcpSurroundings)

/-! ### The table of leases -/

def clearLease (leases : Nat → DhcpOfferedAddr) (chaddr : Fin 16 → Byte)
    (yiaddr : BitVec 32) : Nat → DhcpOfferedAddr := fun i =>
  if i < config.maxLeases ∧
      ((chaddr ≠ blankChaddr ∧ (leases i).chaddr = chaddr) ∨
        (yiaddr ≠ 0 ∧ (leases i).yiaddr = yiaddr)) then blankLease
  else leases i

def leaseExpired (lease : DhcpOfferedAddr) (state : DhcpServer) :
    Bool × DhcpServer :=
  (decide (lease.expires < around.time state.ticks), state.tick)

/-- The loop of `oldest_expired_lease`. -/
def oldestFrom (leases : Nat → DhcpOfferedAddr) :
    Nat → Nat → BitVec 32 → Option Nat → Option Nat
  | 0, _, _, oldest => oldest
  | turns + 1, i, oldestLease, oldest =>
      if (leases i).expires < oldestLease then
        oldestFrom leases turns (i + 1) (leases i).expires (some i)
      else oldestFrom leases turns (i + 1) oldestLease oldest

def oldestExpiredLease (state : DhcpServer) : Option Nat × DhcpServer :=
  (oldestFrom state.leases config.maxLeases 0 (around.time state.ticks) none,
    state.tick)

/-- Whether there was a place for the lease. -/
def addLease (chaddr : Fin 16 → Byte) (yiaddr lease : BitVec 32)
    (state : DhcpServer) : Bool × DhcpServer :=
  let state :=
    { state with leases := clearLease config state.leases chaddr yiaddr }
  let (oldest, state) := oldestExpiredLease config around state
  match oldest with
  | some place =>
      (true, (state.setLease place
        ⟨chaddr, yiaddr, around.time state.ticks + lease⟩).tick)
  | none => (false, state)

def findLeaseByChaddr (leases : Nat → DhcpOfferedAddr)
    (chaddr : Fin 16 → Byte) : Option Nat :=
  Slots.search (fun lease : DhcpOfferedAddr => decide (lease.chaddr = chaddr))
    leases config.maxLeases 0

def findLeaseByYiaddr (leases : Nat → DhcpOfferedAddr)
    (yiaddr : BitVec 32) : Option Nat :=
  Slots.search (fun lease : DhcpOfferedAddr => decide (lease.yiaddr = yiaddr))
    leases config.maxLeases 0

/-- An address that somebody has is kept back. -/
def checkIp (addr : BitVec 32) (state : DhcpServer) : Bool × DhcpServer :=
  let taken := around.arpping state.probes addr
  let state := { state with probes := state.probes + 1 }
  if taken then
    (true,
      (addLease config around blankChaddr addr config.conflictTime state).2)
  else (false, state)

/-- Whether no lease has the address, or one that may be taken over. -/
def addressFree (checkExpired : Bool) (addr : BitVec 32)
    (state : DhcpServer) : Bool × DhcpServer :=
  match findLeaseByYiaddr config state.leases addr with
  | none => (true, state)
  | some place =>
      if checkExpired then leaseExpired around (state.leases place) state
      else (false, state)

/-- The loop of `find_address`, over addresses in host order. -/
def findAddressFrom (checkExpired : Bool) :
    Nat → Nat → DhcpServer → BitVec 32 × DhcpServer
  | 0, _, state => (0, state)
  | turns + 1, addr, state =>
      if addr % 256 = 0 ∨ addr % 256 = 255 then
        findAddressFrom checkExpired turns (addr + 1) state
      else
        let ret := htonl (BitVec.ofNat 32 addr)
        let (free, state) := addressFree config around checkExpired ret state
        if free then
          let (taken, state) := checkIp config around ret state
          if taken then findAddressFrom checkExpired turns (addr + 1) state
          else (ret, state)
        else findAddressFrom checkExpired turns (addr + 1) state

def findAddress (checkExpired : Bool) (state : DhcpServer) :
    BitVec 32 × DhcpServer :=
  findAddressFrom config around checkExpired
    ((ntohl config.last).toNat + 1 - (ntohl config.start).toNat)
    (ntohl config.start).toNat state

/-! ### Messages -/

/-- `memcpy` of four bytes that an option points to. -/
def wordAt (rest : Nat → Byte) (place : Nat) : BitVec 32 :=
  ofBytes 32 (load rest place 4)

def initPacket (oldpacket : DhcpMessage) (type : Byte) :
    Option DhcpMessage := do
  let packet ← initHeader around.behind type
  let (_, rest) ← addSimpleOption packet.rest DHCP_SERVER_ID config.server
  return { packet with
    xid := oldpacket.xid
    chaddr := oldpacket.chaddr
    flags := oldpacket.flags
    giaddr := oldpacket.giaddr
    ciaddr := oldpacket.ciaddr
    rest := rest }

/-- `strncpy`; the text has no zero. -/
def strncpy (rest : Nat → Byte) (place : Nat) (text : List Byte)
    (size : Nat) : Nat → Byte :=
  store rest place
    (text.take size ++ List.replicate (size - text.length) 0)

def addBootpOptions (packet : DhcpMessage) : DhcpMessage :=
  let rest := match config.sname with
    | some sname => strncpy packet.rest 0 sname 63
    | none => packet.rest
  let rest := match config.bootFile with
    | some bootFile => strncpy rest 64 bootFile 127
    | none => rest
  { packet with siaddr := config.siaddr, rest := rest }

/-- The options of the configuration, but for a lease time. -/
def addConfigOptions (rest : Nat → Byte) : Option (Nat → Byte) :=
  addOptionStrings rest
    (config.options.filter fun field => field.code ≠ DHCP_LEASE_TIME)

def addLeaseOptions (rest : Nat → Byte) (leaseTime : BitVec 32) :
    Option (Nat → Byte) := do
  let (_, rest) ← addSimpleOption rest DHCP_LEASE_TIME (htonl leaseTime)
  let (_, rest) ← addSimpleOption rest DHCP_SUBNET around.netmask
  let (_, rest) ← addSimpleOption rest DHCP_ROUTER around.gw
  let (_, rest) ← addSimpleOption rest DHCP_DNS_SERVER around.ipAddr
  addConfigOptions config rest

/-- The address asked for, where it is in the range. -/
def requestedInRange (oldpacket : DhcpMessage) : Option (BitVec 32) := do
  let req ← getOption oldpacket.rest DHCP_REQUESTED_IP
  let reqAlign := wordAt oldpacket.rest req
  guard (ntohl config.start ≤ ntohl reqAlign ∧
    ntohl reqAlign ≤ ntohl config.last)
  return reqAlign

/-- An address asked for may be given where no lease has it, or an expired one. -/
def requestedFree (reqAlign : BitVec 32) (state : DhcpServer) :
    Bool × DhcpServer :=
  addressFree config around true reqAlign state

def findAnyAddress (state : DhcpServer) : BitVec 32 × DhcpServer :=
  let (yiaddr, state) := findAddress config around false state
  if yiaddr = 0 then findAddress config around true state
  else (yiaddr, state)

/-- The address of an offer, and the lease time so far. -/
def chooseAddress (oldpacket : DhcpMessage) (state : DhcpServer) :
    BitVec 32 × BitVec 32 × DhcpServer :=
  match findLeaseByChaddr config state.leases oldpacket.chaddr with
  | some place =>
      let lease := state.leases place
      let (expired, state) := leaseExpired around lease state
      if expired then (lease.yiaddr, config.lease, state)
      else
        (lease.yiaddr, lease.expires - around.time state.ticks, state.tick)
  | none =>
      match requestedInRange config oldpacket with
      | some reqAlign =>
          let (free, state) := requestedFree config around reqAlign state
          if free then (reqAlign, config.lease, state)
          else
            let (yiaddr, state) := findAnyAddress config around state
            (yiaddr, config.lease, state)
      | none =>
          let (yiaddr, state) := findAnyAddress config around state
          (yiaddr, config.lease, state)

def offerLeaseTime (oldpacket : DhcpMessage) (leaseTime : BitVec 32) :
    BitVec 32 :=
  let leaseTime := match getOption oldpacket.rest DHCP_LEASE_TIME with
    | some place =>
        let asked := ntohl (wordAt oldpacket.rest place)
        if config.lease < asked then config.lease else asked
    | none => leaseTime
  if leaseTime < config.minLease then config.lease else leaseTime

def sendOffer (oldpacket : DhcpMessage) (state : DhcpServer) :
    Option DhcpServer := do
  let packet ← initPacket config around oldpacket DHCPOFFER
  let (yiaddr, leaseTime, state) := chooseAddress config around oldpacket state
  if yiaddr = 0 then return state
  else
    let (added, state) :=
      addLease config around packet.chaddr yiaddr config.offerTime state
    if added then
      let leaseTime := offerLeaseTime config oldpacket leaseTime
      let rest ← addLeaseOptions config around packet.rest leaseTime
      let packet := { packet with yiaddr := yiaddr, rest := rest }
      return { state with
        sent := state.sent ++ [addBootpOptions config packet] }
    else return state

def sendNAK (oldpacket : DhcpMessage) (state : DhcpServer) :
    Option DhcpServer := do
  let packet ← initPacket config around oldpacket DHCPNAK
  return { state with sent := state.sent ++ [packet] }

def ackLeaseTime (oldpacket : DhcpMessage) : BitVec 32 :=
  match getOption oldpacket.rest DHCP_LEASE_TIME with
  | some place =>
      let asked := ntohl (wordAt oldpacket.rest place)
      if config.lease < asked then config.lease
      else if asked < config.minLease then config.lease
      else asked
  | none => config.lease

def sendACK (oldpacket : DhcpMessage) (yiaddr : BitVec 32)
    (state : DhcpServer) : Option DhcpServer := do
  let packet ← initPacket config around oldpacket DHCPACK
  let leaseTime := ackLeaseTime config oldpacket
  let rest ← addLeaseOptions config around packet.rest leaseTime
  let packet := { packet with yiaddr := yiaddr, rest := rest }
  let state := { state with
    sent := state.sent ++ [addBootpOptions config packet] }
  return (addLease config around packet.chaddr yiaddr leaseTime state).2

def sendInform (oldpacket : DhcpMessage) (state : DhcpServer) :
    Option DhcpServer := do
  let packet ← initPacket config around oldpacket DHCPACK
  let rest ← addConfigOptions config packet.rest
  return { state with
    sent := state.sent ++
      [addBootpOptions config { packet with rest := rest }] }

/-! ### What arrives -/

/-- A request by a client that is in the table. -/
def knownRequest (packet : DhcpMessage) (lease : DhcpOfferedAddr)
    (state : DhcpServer) : Option DhcpServer :=
  let requested := (getOption packet.rest DHCP_REQUESTED_IP).map
    (wordAt packet.rest)
  let serverId := (getOption packet.rest DHCP_SERVER_ID).map
    (wordAt packet.rest)
  match serverId with
  | some serverId =>
      if serverId = config.server ∧ requested = some lease.yiaddr then
        sendACK config around packet lease.yiaddr state
      else some state
  | none =>
      match requested with
      | some requested =>
          if lease.yiaddr = requested then
            sendACK config around packet lease.yiaddr state
          else sendNAK config around packet state
      | none =>
          if lease.yiaddr = packet.ciaddr then
            sendACK config around packet lease.yiaddr state
          else sendNAK config around packet state

/-- A request by a client that is not in the table. -/
def unknownRequest (packet : DhcpMessage) (state : DhcpServer) :
    Option DhcpServer :=
  match getOption packet.rest DHCP_SERVER_ID,
      (getOption packet.rest DHCP_REQUESTED_IP).map (wordAt packet.rest) with
  | none, some requested =>
      match findLeaseByYiaddr config state.leases requested with
      | some place =>
          let lease := state.leases place
          let (expired, state) := leaseExpired around lease state
          if expired then
            some (state.setLease place { lease with chaddr := blankChaddr })
          else sendNAK config around packet state
      | none => sendNAK config around packet state
  | _, _ => some state

/-- A turn of the loop of `udhcpd_start`, with a message that `get_packet` let
pass. -/
def udhcpdPacket (packet : DhcpMessage) (state : DhcpServer) :
    Option DhcpServer :=
  match getOption packet.rest DHCP_MESSAGE_TYPE with
  | none => some state
  | some place =>
      let lease := findLeaseByChaddr config state.leases packet.chaddr
      let type := packet.rest place
      if type = DHCPDISCOVER then sendOffer config around packet state
      else if type = DHCPREQUEST then
        match lease with
        | some place =>
            knownRequest config around packet (state.leases place) state
        | none => unknownRequest config around packet state
      else if type = DHCPDECLINE then
        match lease with
        | some place =>
            some (state.setLease place
              { state.leases place with
                chaddr := blankChaddr
                expires := around.time state.ticks + config.declineTime }).tick
        | none => some state
      else if type = DHCPRELEASE then
        match lease with
        | some place =>
            some (state.setLease place
              { state.leases place with
                expires := around.time state.ticks }).tick
        | none => some state
      else if type = DHCPINFORM then sendInform config around packet state
      else some state

/-- Before the first message. -/
def udhcpdStart : DhcpServer := ⟨fun _ => blankLease, 0, 0, []⟩

end XR872.Network
