/-
Leases over whole runs of the DHCP server.

Messages may come from any clients in any order, with anything in them; the
clock may show anything and anybody may answer a probe.
-/

import XR872.Network.DhcpAnswers

namespace XR872.Network

open BitView
open Memories
open TaggedFields

variable (config : DhcpConfig) (around : DhcpSurroundings)

/-- The server after the messages. -/
def udhcpdRun (state : DhcpServer) (packets : List DhcpMessage) :
    Option DhcpServer :=
  packets.foldlM (fun state packet => udhcpdPacket config around packet state)
    state

def messageType (packet : DhcpMessage) : Option Byte :=
  (getOption packet.rest DHCP_MESSAGE_TYPE).map packet.rest

structure Granted (state leased : DhcpServer) (request reply : DhcpMessage)
    (time : BitVec 32) : Prop where
  client : request.chaddr ≠ blankChaddr
  type : messageType request = some DHCPREQUEST
  run : udhcpdPacket config around request state = some leased
  answered : leased.sent = state.sent ++ [reply]
  address : reply.yiaddr ≠ 0
  grants : grantedTime reply = some time
  running : 0 < around.time state.ticks

variable {config around} {state after : DhcpServer}

theorem udhcpdRun_cons (packet : DhcpMessage) (packets : List DhcpMessage) :
    udhcpdRun config around state (packet :: packets) =
      (udhcpdPacket config around packet state).bind fun state =>
        udhcpdRun config around state packets := List.foldlM_cons

/-! ### Runs -/

variable (config around) in
theorem udhcpdRun_spec (packets : List DhcpMessage) (state : DhcpServer)
    (ok : LeasesOk config state.leases) :
    ∃ after more, udhcpdRun config around state packets = some after ∧
      state.ticks ≤ after.ticks ∧ after.sent = state.sent ++ more ∧
      LeasesOk config after.leases ∧
      ∀ reply ∈ more, (∃ packet ∈ packets, reply.chaddr = packet.chaddr) ∧
        (reply.yiaddr = 0 ∨ InRange config reply.yiaddr) := by
  induction packets generalizing state with
  | nil => exact ⟨state, [], rfl, Nat.le_refl _, by simp, ok, by simp⟩
  | cons packet packets ih =>
      obtain ⟨middle, first, run, answers⟩ := udhcpdPacket_answers config around packet state
      obtain ⟨after, later, rest, ticks, sent, ok', replies⟩ :=
        ih middle (answers.ok ok)
      refine ⟨after, first ++ later, ?_, Nat.le_trans answers.ticks ticks, ?_,
        ok', ?_⟩
      · rw [udhcpdRun_cons, run]
        exact rest
      · rw [sent, answers.sent, List.append_assoc]
      · intro reply member
        cases List.mem_append.mp member with
        | inl here =>
            exact ⟨⟨packet, List.mem_cons_self, answers.clients reply here⟩,
              answers.ranged ok reply here⟩
        | inr there =>
            obtain ⟨sender, isLater, same⟩ := (replies reply there).1
            exact ⟨⟨sender, List.mem_cons_of_mem _ isLater, same⟩,
              (replies reply there).2⟩

/-- After any run no two slots of the table share a client or an address, and
every address given is in the range, to a client that asked. -/
theorem leases_distinct (packets : List DhcpMessage) :
    ∃ after, udhcpdRun config around udhcpdStart packets = some after ∧
      LeasesOk config after.leases ∧
      ∀ reply ∈ after.sent, (∃ packet ∈ packets, reply.chaddr = packet.chaddr) ∧
        (reply.yiaddr = 0 ∨ InRange config reply.yiaddr) := by
  obtain ⟨after, more, run, _, sent, ok, replies⟩ := udhcpdRun_spec config
    around packets udhcpdStart (LeasesOk.blank _ fun _ => rfl)
  refine ⟨after, run, ok, ?_⟩
  rw [sent]
  exact replies

/-! ### A lease that was granted -/

def Idle (packet : DhcpMessage) : Prop :=
  ∀ type ∈ [DHCPDISCOVER, DHCPREQUEST, DHCPDECLINE, DHCPRELEASE],
    messageType packet ≠ some type

variable (config around) in
theorem idle_quiet (packet : DhcpMessage) (state : DhcpServer)
    (idle : Idle packet) :
    udhcpdPacket config around packet state = some state ∨
      ∃ reply, reply.yiaddr = 0 ∧ udhcpdPacket config around packet state =
        some { state with sent := state.sent ++ [reply] } := by
  unfold udhcpdPacket
  cases found : getOption packet.rest DHCP_MESSAGE_TYPE with
  | none => exact Or.inl rfl
  | some place =>
      have other (type : Byte)
          (listed : type ∈ [DHCPDISCOVER, DHCPREQUEST, DHCPDECLINE,
            DHCPRELEASE]) : packet.rest place ≠ type := by
        intro same
        apply idle type listed
        rw [messageType, found, Option.map_some, same]
      dsimp only
      rw [if_neg (other DHCPDISCOVER (by simp)),
        if_neg (other DHCPREQUEST (by simp)),
        if_neg (other DHCPDECLINE (by simp)),
        if_neg (other DHCPRELEASE (by simp))]
      split
      · obtain ⟨reply, run, _, yiaddr⟩ := sendInform_answers config around packet state
        exact Or.inr ⟨reply, yiaddr, run⟩
      · exact Or.inl rfl

/-- The lease of a client that is idle stays in the table as long as it runs, and
its address is given to nobody. -/
theorem udhcpdRun_held (chaddr : Fin 16 → Byte) (yiaddr bound : BitVec 32)
    (some_ : chaddr ≠ blankChaddr) (positive : yiaddr ≠ 0)
    (packets : List DhcpMessage) (state after : DhcpServer)
    (idle : ∀ packet ∈ packets, packet.chaddr = chaddr → Idle packet)
    (ok : LeasesOk config state.leases)
    (held : Held config chaddr yiaddr bound state.leases)
    (run : udhcpdRun config around state packets = some after)
    (early : Early around bound state after) :
    Held config chaddr yiaddr bound after.leases ∧
      LeasesOk config after.leases ∧ ∃ more, after.sent = state.sent ++ more ∧
        ∀ reply ∈ more, reply.yiaddr ≠ yiaddr := by
  induction packets generalizing state with
  | nil =>
      cases run
      exact ⟨held, ok, [], by simp, by simp⟩
  | cons packet packets ih =>
      obtain ⟨middle, first, step, answers⟩ := udhcpdPacket_answers config around packet state
      rw [udhcpdRun_cons, step] at run
      change udhcpdRun config around middle packets = some after at run
      have ticks : middle.ticks ≤ after.ticks := by
        obtain ⟨after', _, run', le, _⟩ := udhcpdRun_spec config around packets
          middle (answers.ok ok)
        rw [run] at run'
        rw [Option.some.inj run']
        exact le
      have here : Held config chaddr yiaddr bound middle.leases ∧
          ∀ reply ∈ first, reply.yiaddr ≠ yiaddr := by
        by_cases own : packet.chaddr = chaddr
        · cases idle_quiet config around packet state
            (idle packet List.mem_cons_self own) with
          | inl nothing =>
              rw [step] at nothing
              cases nothing
              have none_ : first = [] :=
                List.self_eq_append_right.mp answers.sent
              rw [none_]
              exact ⟨held, by simp⟩
          | inr informed =>
              obtain ⟨reply, zero, told⟩ := informed
              rw [step] at told
              cases told
              have one : first = [reply] :=
                (List.append_cancel_left answers.sent).symm
              rw [one]
              refine ⟨held, ?_⟩
              rw [List.forall_mem_singleton, zero]
              exact positive.symm
        · have front := early.front ticks
          exact ⟨answers.held chaddr yiaddr bound some_ positive own ok front held,
            answers.free chaddr yiaddr bound some_ positive own ok front held⟩
      obtain ⟨held', ok', later, sent, free⟩ := ih middle
        (fun other member => idle other (List.mem_cons_of_mem _ member))
        (answers.ok ok) here.1 run (early.back answers.ticks)
      refine ⟨held', ok', first ++ later, ?_, ?_⟩
      · rw [sent, answers.sent, List.append_assoc]
      · rw [List.forall_mem_append]
        exact ⟨here.2, free⟩

/-- Without a server's identifier a client that is not in the table is given no
address. -/
theorem unknownRequest_address (packet : DhcpMessage) (state after : DhcpServer)
    (run : unknownRequest config around packet state = some after)
    (reply : DhcpMessage) (answered : after.sent = state.sent ++ [reply]) :
    reply.yiaddr = 0 := by
  have nak (before : DhcpServer) (sent : before.sent = state.sent)
      (run : sendNAK config around packet before = some after) :
      reply.yiaddr = 0 := by
    obtain ⟨nak, run', _, yiaddr⟩ := sendNAK_answers config around packet before
    rw [run] at run'
    cases run'
    dsimp only at answered
    rw [sent] at answered
    cases List.append_cancel_left answered
    exact yiaddr
  have nothing (sent : after.sent = state.sent) : reply.yiaddr = 0 := by
    rw [sent] at answered
    cases List.self_eq_append_right.mp answered
  unfold unknownRequest at run
  split at run
  · split at run
    · dsimp only [leaseExpired] at run
      split at run
      · cases run
        exact nothing rfl
      · exact nak state.tick rfl run
    · exact nak state rfl run
  · cases run
    exact nothing rfl

/-- A client in the table is given its own address, with the time that is put
into the table. -/
theorem knownRequest_address (packet : DhcpMessage) (state after : DhcpServer)
    (lease : DhcpOfferedAddr)
    (run : knownRequest config around packet lease state = some after)
    (reply : DhcpMessage) (answered : after.sent = state.sent ++ [reply])
    (address : reply.yiaddr ≠ 0) :
    sendACK config around packet lease.yiaddr state = some after := by
  have nak (run : sendNAK config around packet state = some after) :
      sendACK config around packet lease.yiaddr state = some after := by
    obtain ⟨nak, run', _, yiaddr⟩ := sendNAK_answers config around packet state
    rw [run] at run'
    cases run'
    cases List.append_cancel_left answered
    exact absurd yiaddr address
  unfold knownRequest at run
  dsimp only at run
  split at run
  · split at run
    · exact run
    · cases run
      cases List.self_eq_append_right.mp answered
  · split at run
    · split at run
      · exact run
      · exact nak run
    · split at run
      · exact run
      · exact nak run

theorem Granted.held {leased : DhcpServer} {request reply : DhcpMessage}
    {time : BitVec 32}
    (granted : Granted config around state leased request reply time) :
    leased.ticks = state.ticks + 2 ∧
      Held config request.chaddr reply.yiaddr
        (around.time (state.ticks + 1) + time) leased.leases := by
  have run := granted.run
  have isRequest := granted.type
  unfold messageType at isRequest
  unfold udhcpdPacket at run
  cases found : getOption request.rest DHCP_MESSAGE_TYPE with
  | none => simp [found] at isRequest
  | some typePlace =>
      rw [found, Option.map_some, Option.some_inj] at isRequest
      have notDiscover : DHCPREQUEST ≠ DHCPDISCOVER := by decide
      simp only [found, isRequest, if_neg notDiscover, if_true] at run
      cases known : findLeaseByChaddr config state.leases request.chaddr with
      | none =>
          simp only [known] at run
          exact absurd (unknownRequest_address request state leased run reply
            granted.answered) granted.address
      | some place =>
          simp only [known] at run
          have isPlace := findLeaseByChaddr_some place known
          have ack := knownRequest_address request state leased
            (state.leases place) run reply granted.answered granted.address
          obtain ⟨packet, _, yiaddr, time', run'⟩ := sendACK_spec config around request
            (state.leases place).yiaddr state
          rw [run'] at ack
          have spec := addLease_spec config around
            request.chaddr (state.leases place).yiaddr
            (ackLeaseTime config request)
            { state with sent := state.sent ++ [packet] }
          have own := addLease_own config around
            request.chaddr (state.leases place).yiaddr
            (ackLeaseTime config request)
            { state with sent := state.sent ++ [packet] } granted.client place
            isPlace.1 isPlace.2 granted.running
          have sent := spec.2.1
          rw [Option.some.inj ack] at sent own
          have same : packet = reply := by
            rw [granted.answered] at sent
            cases List.append_cancel_left sent
            rfl
          have isTime : ackLeaseTime config request = time := by
            rw [same, granted.grants] at time'
            exact (Option.some.inj time').symm
          rw [isTime, ← yiaddr, same] at own
          exact own

/-! ### A network at home -/

def homeConfig : DhcpConfig where
  server := htonl 0xC0A83301#32
  start := htonl 0xC0A83364#32
  last := htonl 0xC0A83368#32
  options := []
  lease := 864000#32
  maxLeases := 5
  declineTime := 3600#32
  conflictTime := 3600#32
  offerTime := 60#32
  minLease := 60#32
  siaddr := 0
  sname := none
  bootFile := none
  bounded := by decide
  plain := by simp

def homeNetwork : DhcpSurroundings where
  time := fun n => BitVec.ofNat 32 (1000 + n)
  arpping := fun _ _ => false
  netmask := htonl 0xFFFFFF00#32
  gw := htonl 0xC0A83301#32
  ipAddr := htonl 0xC0A83301#32
  behind := fun _ => 0

def plainMessage (client : Byte) (type : Byte) (ciaddr : BitVec 32) :
    DhcpMessage where
  op := BOOTREQUEST
  htype := 1
  hlen := 6
  xid := 0
  flags := 0
  ciaddr := ciaddr
  yiaddr := 0
  siaddr := 0
  giaddr := 0
  chaddr := fun index => if index = 0 then client else 0
  cookie := htonl DHCP_MAGIC
  rest := store (fun _ => 0) optionsPlace [DHCP_MESSAGE_TYPE, 1, type, DHCP_END]

def homeRequest : DhcpMessage :=
  plainMessage 1 DHCPREQUEST (htonl 0xC0A83364#32)

/-- The server after an offer, after the client took it, and after an offer to
another client. -/
def homeOffered : DhcpServer :=
  (udhcpdRun homeConfig homeNetwork udhcpdStart
    [plainMessage 1 DHCPDISCOVER 0]).get (by decide +kernel)

def homeLeased : DhcpServer :=
  (udhcpdPacket homeConfig homeNetwork homeRequest homeOffered).get
    (by decide +kernel)

def homeAfter : DhcpServer :=
  (udhcpdRun homeConfig homeNetwork homeLeased
    [plainMessage 2 DHCPDISCOVER 0]).get (by decide +kernel)

theorem homeLeased_granted :
    ∃ reply, reply.yiaddr = htonl 0xC0A83364#32 ∧
      Granted homeConfig homeNetwork homeOffered homeLeased homeRequest reply
        864000#32 := by
  have run : udhcpdPacket homeConfig homeNetwork homeRequest homeOffered =
      some homeLeased := (Option.some_get _).symm
  obtain ⟨leased, more, run', answers⟩ := udhcpdPacket_answers homeConfig
    homeNetwork homeRequest homeOffered
  rw [run] at run'
  cases run'
  have sent := answers.sent
  have one : more.length = 1 := by
    have before : homeOffered.sent.length = 1 := by decide +kernel
    have after : homeLeased.sent.length = 2 := by decide +kernel
    rw [sent, List.length_append] at after
    omega
  obtain ⟨reply, same⟩ := List.length_eq_one_iff.mp one
  rw [same] at sent
  have last : homeLeased.sent.getLast? = some reply := by
    rw [sent, List.getLast?_concat]
  have yiaddr : homeLeased.sent.getLast?.map DhcpMessage.yiaddr =
      some (htonl 0xC0A83364#32) := by decide +kernel
  have time : homeLeased.sent.getLast?.bind grantedTime =
      some 864000#32 := by decide +kernel
  rw [last] at yiaddr time
  have address : reply.yiaddr = htonl 0xC0A83364#32 := Option.some.inj yiaddr
  refine ⟨reply, address, ?_, ?_, run, sent, ?_, time, ?_⟩
  · decide +kernel
  · decide +kernel
  · rw [address]
    decide
  · decide +kernel

theorem homeLeased_idle : ∀ packet ∈ [plainMessage 2 DHCPDISCOVER 0],
    packet.chaddr = homeRequest.chaddr → Idle packet := by
  intro packet member same
  rw [List.mem_singleton.mp member] at same
  have differ : (plainMessage 2 DHCPDISCOVER 0).chaddr ≠
      homeRequest.chaddr := by decide +kernel
  exact absurd same differ

theorem homeAfter_early : ∀ n, homeLeased.ticks ≤ n → n < homeAfter.ticks →
    (homeNetwork.time n).toNat ≤
      (homeNetwork.time (homeOffered.ticks + 1)).toNat +
        (864000#32).toNat := by
  have ticks : homeAfter.ticks = 6 := by decide +kernel
  rw [ticks]
  intro n _ below
  have reading : (homeNetwork.time n).toNat = 1000 + n := by
    change (BitVec.ofNat 32 (1000 + n)).toNat = 1000 + n
    rw [BitVec.toNat_ofNat, Nat.mod_eq_of_lt (by omega)]
  have granted : (864000#32).toNat = 864000 := rfl
  rw [reading, granted]
  omega

section Leases

variable (packets later : List DhcpMessage) (leased : DhcpServer)
  (request reply : DhcpMessage) (time : BitVec 32)
  (reached : udhcpdRun config around udhcpdStart packets = some state)
  (granted : Granted config around state leased request reply time)
  (noWrap : (around.time (state.ticks + 1)).toNat + time.toNat < 2 ^ 32)
  (idle : ∀ packet ∈ later, packet.chaddr = request.chaddr → Idle packet)
  (run : udhcpdRun config around leased later = some after)
  (early : ∀ n, leased.ticks ≤ n → n < after.ticks → (around.time n).toNat ≤
    (around.time (state.ticks + 1)).toNat + time.toNat)

include reached granted noWrap idle run early in
theorem lease_held :
    Held config request.chaddr reply.yiaddr
        (around.time (state.ticks + 1) + time) after.leases ∧
      LeasesOk config after.leases ∧ ∃ more, after.sent = leased.sent ++ more ∧
        ∀ other ∈ more, other.yiaddr ≠ reply.yiaddr := by
  obtain ⟨state', _, run', _, _, ok, _⟩ := udhcpdRun_spec config around packets udhcpdStart
    (LeasesOk.blank _ fun _ => rfl)
  rw [reached] at run'
  cases run'
  obtain ⟨leased', _, step, answers⟩ := udhcpdPacket_answers config around request state
  rw [granted.run] at step
  cases step
  apply udhcpdRun_held request.chaddr reply.yiaddr _ granted.client
    granted.address later leased after idle (answers.ok ok) granted.held.2 run
  intro n from_ below
  have inTime := early n from_ below
  rw [BitVec.le_def, BitVec.toNat_add, Nat.mod_eq_of_lt noWrap]
  exact inTime

include reached granted noWrap idle run early in
/-- An address that was granted for a time is given to nobody else, whatever the
others send, as long as no reading of the clock is later and the client leaves
its lease alone. -/
theorem lease_exclusive :
    ∃ more, after.sent = leased.sent ++ more ∧
      ∀ other ∈ more, other.yiaddr ≠ reply.yiaddr :=
  (lease_held packets later leased request reply time reached granted noWrap
    idle run early).2.2

theorem lease_exclusive_home :
    ∃ more, homeAfter.sent = homeLeased.sent ++ more ∧
      ∀ other ∈ more, other.yiaddr ≠ htonl 0xC0A83364#32 := by
  obtain ⟨reply, address, granted⟩ := homeLeased_granted
  rw [← address]
  exact lease_exclusive [plainMessage 1 DHCPDISCOVER 0]
    [plainMessage 2 DHCPDISCOVER 0] homeLeased homeRequest reply 864000#32
    (Option.some_get _).symm granted (by decide +kernel) homeLeased_idle
    (Option.some_get _).symm homeAfter_early

include reached granted noWrap idle run early in
/-- Up to then the client can renew its lease. -/
theorem lease_renewed (renewal : DhcpMessage)
    (own : renewal.chaddr = request.chaddr)
    (type : messageType renewal = some DHCPREQUEST)
    (noServer : getOption renewal.rest DHCP_SERVER_ID = none)
    (noAddress : getOption renewal.rest DHCP_REQUESTED_IP = none)
    (ciaddr : renewal.ciaddr = reply.yiaddr) :
    ∃ again acknowledgement,
      udhcpdPacket config around renewal after = some again ∧
      again.sent = after.sent ++ [acknowledgement] ∧
      acknowledgement.chaddr = request.chaddr ∧
      acknowledgement.yiaddr = reply.yiaddr ∧
      grantedTime acknowledgement = some (ackLeaseTime config renewal) := by
  obtain ⟨held, ok, _⟩ := lease_held packets later leased request reply time
    reached granted noWrap idle run early
  obtain ⟨i, isI, gives⟩ := held
  cases known : findLeaseByChaddr config after.leases renewal.chaddr with
  | none =>
      have missing := Slots.search_eq_none known i (Nat.zero_le _) (by omega)
      rw [decide_eq_false_iff_not, gives.1, own] at missing
      exact absurd rfl missing
  | some place =>
      have isPlace := findLeaseByChaddr_some place known
      have here : place = i := by
        by_contra differ
        apply granted.client
        rw [← own, ← isPlace.2]
        exact ok.chaddrs place i isPlace.1 isI differ
          (isPlace.2.trans (own.trans gives.1.symm))
      have address : (after.leases place).yiaddr = reply.yiaddr := by
        rw [here]
        exact gives.2.1
      obtain ⟨packet, client, yiaddr, grants, acknowledged⟩ := sendACK_spec
        config around renewal (after.leases place).yiaddr after
      have spec := addLease_spec config around
        renewal.chaddr (after.leases place).yiaddr (ackLeaseTime config renewal)
        { after with sent := after.sent ++ [packet] }
      refine ⟨_, packet, ?_, spec.2.1, client.trans own,
        yiaddr.trans address, grants⟩
      rw [← acknowledged]
      unfold messageType at type
      unfold udhcpdPacket
      cases found : getOption renewal.rest DHCP_MESSAGE_TYPE with
      | none => simp [found] at type
      | some typePlace =>
          rw [found, Option.map_some, Option.some_inj] at type
          have notDiscover : DHCPREQUEST ≠ DHCPDISCOVER := by decide
          simp only [type, if_neg notDiscover, if_true, known]
          unfold knownRequest
          simp only [noServer, noAddress, Option.map_none]
          rw [if_pos (address.trans ciaddr.symm)]

theorem lease_renewed_home :
    ∃ again acknowledgement,
      udhcpdPacket homeConfig homeNetwork homeRequest homeAfter = some again ∧
      again.sent = homeAfter.sent ++ [acknowledgement] ∧
      acknowledgement.yiaddr = htonl 0xC0A83364#32 := by
  obtain ⟨reply, address, granted⟩ := homeLeased_granted
  obtain ⟨again, acknowledgement, run, sent, _, yiaddr, _⟩ :=
    lease_renewed [plainMessage 1 DHCPDISCOVER 0]
      [plainMessage 2 DHCPDISCOVER 0] homeLeased homeRequest reply 864000#32
      (Option.some_get _).symm granted (by decide +kernel) homeLeased_idle
      (Option.some_get _).symm homeAfter_early homeRequest rfl
      (by decide +kernel) (by decide +kernel) (by decide +kernel) address.symm
  exact ⟨again, acknowledgement, run, sent, yiaddr.trans address⟩

end Leases

end XR872.Network
