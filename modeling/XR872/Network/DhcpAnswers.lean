/-
What the server answers, and what each answer does to the table of leases.
-/

import XR872.Network.DhcpLeases

namespace XR872.Network

open BitView
open Memories
open TaggedFields

variable {config : DhcpConfig} {around : DhcpSurroundings}
  {state after : DhcpServer}

/-! ### The messages sent -/

def BeginsWith (rest : Nat → Byte) (fields : List Field) : Prop :=
  ∃ more, Optioned rest (fields ++ more) ∧ ∀ field ∈ fields ++ more, Plain field

namespace BeginsWith

variable {rest : Nat → Byte} {fields : List Field}

/-- A further option of the table does not change how the options begin. -/
theorem add_simple (begins : BeginsWith rest fields) (code : Byte)
    (data : BitVec 32) (known : simpleLength code ∈ [1, 2, 4])
    (plain : Plain (simpleField code data)) :
    ∃ count after, addSimpleOption rest code data = some (count, after) ∧
      BeginsWith after fields := by
  obtain ⟨more, options, all⟩ := begins
  obtain ⟨count, after, run, optioned, _⟩ :=
    options.add_simple code data known ⟨plain.1, plain.2.1⟩
  refine ⟨count, after, run, ?_⟩
  obtain ⟨added, same⟩ := putIn_eq_append (optionsSize - 1) (fields ++ more)
    (simpleField code data)
  refine ⟨more ++ added, ?_, ?_⟩
  · rw [← List.append_assoc, ← same]
    exact optioned
  · rw [← List.append_assoc, ← same]
    intro field member
    cases mem_putIn member with
    | inl old => exact all field old
    | inr new => rw [new]; exact plain

theorem add_strings (begins : BeginsWith rest fields) (others : List Field)
    (plain : ∀ field ∈ others, Plain field) :
    ∃ after, addOptionStrings rest others = some after ∧
      BeginsWith after fields := by
  obtain ⟨more, options, all⟩ := begins
  obtain ⟨after, run, optioned, whole, _⟩ :=
    options.add_strings all others plain
  obtain ⟨added, same⟩ :=
    putAll_eq_append (optionsSize - 1) (fields ++ more) others
  refine ⟨after, run, more ++ added, ?_, ?_⟩
  · rw [← List.append_assoc, ← same]
    exact optioned
  · rw [← List.append_assoc, ← same]
    exact whole

theorem congr {rest' : Nat → Byte} (begins : BeginsWith rest fields)
    (same : ∀ address, optionsPlace ≤ address → rest' address = rest address) :
    BeginsWith rest' fields := by
  obtain ⟨more, options, all⟩ := begins
  exact ⟨more, ⟨options.spelled.congr fun address from_ _ => same address from_,
    options.codes, options.fits⟩, all⟩

theorem found (begins : BeginsWith rest fields) (code : Byte)
    (notEnd : code ≠ DHCP_END) (field : Field)
    (first : fields.find? (fun field => field.code = code) = some field) :
    ∃ place, getOption rest code = some place ∧
      load rest place field.data.length = field.data := by
  obtain ⟨more, options, all⟩ := begins
  apply options.option_found (fun field member => (all field member).2.2) code
    notEnd field
  rw [List.find?_append, first]
  rfl

end BeginsWith

def messageTypeField (type : Byte) : Field :=
  simpleField DHCP_MESSAGE_TYPE (type.setWidth 32)

theorem plain_messageType (type : Byte) : Plain (messageTypeField type) := by
  change DHCP_MESSAGE_TYPE ≠ _ ∧ DHCP_MESSAGE_TYPE ≠ _ ∧ DHCP_MESSAGE_TYPE ≠ _
  decide

variable (config around) in
theorem initPacket_spec (oldpacket : DhcpMessage) (type : Byte) :
    ∃ packet, initPacket config around oldpacket type = some packet ∧
      packet.chaddr = oldpacket.chaddr ∧ packet.yiaddr = 0 ∧
      Optioned packet.rest
        [messageTypeField type, simpleField DHCP_SERVER_ID config.server] := by
  obtain ⟨packet, started, options, _, yiaddr⟩ :=
    initHeader_spec around.behind type
  obtain ⟨count, rest, run, optioned, _⟩ := options.add_simple DHCP_SERVER_ID
    config.server (by decide) (by decide)
  unfold initPacket
  simp only [started, run, Option.bind_eq_bind, Option.bind_some]
  refine ⟨_, rfl, rfl, yiaddr, ?_⟩
  rw [putIn, if_pos] at optioned
  · exact optioned
  · have type_ : (simpleField DHCP_MESSAGE_TYPE (type.setWidth 32)).size = 3 :=
      rfl
    have server : (simpleField DHCP_SERVER_ID config.server).size = 6 := rfl
    rw [room_cons, room_nil, type_, server]
    decide

variable (config around) in
theorem addLeaseOptions_spec (rest : Nat → Byte) (type : Byte)
    (leaseTime : BitVec 32)
    (options : Optioned rest
      [messageTypeField type, simpleField DHCP_SERVER_ID config.server]) :
    ∃ after, addLeaseOptions config around rest leaseTime = some after ∧
      BeginsWith after
        [messageTypeField type, simpleField DHCP_SERVER_ID config.server,
          simpleField DHCP_LEASE_TIME (htonl leaseTime)] := by
  have plain (code : Byte) (data : BitVec 32)
      (own : code ≠ DHCP_PADDING ∧ code ≠ DHCP_END ∧ code ≠ DHCP_OPTION_OVER) :
      Plain (simpleField code data) := own
  obtain ⟨_, rest1, run1, first, _⟩ := options.add_simple DHCP_LEASE_TIME
    (htonl leaseTime) (by decide) (by decide)
  have begins : BeginsWith rest1
      [messageTypeField type, simpleField DHCP_SERVER_ID config.server,
        simpleField DHCP_LEASE_TIME (htonl leaseTime)] := by
    refine ⟨[], ?_, ?_⟩
    · rw [putIn, if_pos] at first
      · exact first
      · have type_ : (messageTypeField type).size = 3 := rfl
        have server : (simpleField DHCP_SERVER_ID config.server).size = 6 := rfl
        have lease :
            (simpleField DHCP_LEASE_TIME (htonl leaseTime)).size = 6 := rfl
        rw [room_cons, room_cons, room_nil, type_, server, lease]
        decide
    · rw [List.append_nil, List.forall_mem_cons, List.forall_mem_cons,
        List.forall_mem_singleton]
      exact ⟨plain_messageType type, plain _ _ (by decide),
        plain _ _ (by decide)⟩
  obtain ⟨_, rest2, run2, second⟩ := begins.add_simple DHCP_SUBNET
    around.netmask (by decide) (plain _ _ (by decide))
  obtain ⟨_, rest3, run3, third⟩ := second.add_simple DHCP_ROUTER around.gw
    (by decide) (plain _ _ (by decide))
  obtain ⟨_, rest4, run4, fourth⟩ := third.add_simple DHCP_DNS_SERVER
    around.ipAddr (by decide) (plain _ _ (by decide))
  obtain ⟨rest5, run5, last⟩ := fourth.add_strings
    (config.options.filter fun field => field.code ≠ DHCP_LEASE_TIME)
    (fun field member => config.plain field (List.mem_of_mem_filter member))
  refine ⟨rest5, ?_, last⟩
  unfold addLeaseOptions addConfigOptions
  simp only [run1, run2, run3, run4, Option.bind_eq_bind, Option.bind_some]
  exact run5

variable (config) in
theorem addBootpOptions_rest (packet : DhcpMessage) (address : Nat)
    (from_ : optionsPlace ≤ address) :
    (addBootpOptions config packet).rest address = packet.rest address := by
  have outside (rest : Nat → Byte) (place : Nat) (text : List Byte) (size : Nat)
      (before : place + size ≤ address) :
      strncpy rest place text size address = rest address := by
    apply store_outside
    right
    rw [List.length_append, List.length_take, List.length_replicate]
    omega
  have far : 196 ≤ address := from_
  unfold addBootpOptions
  dsimp only
  cases config.sname with
  | none =>
      cases config.bootFile with
      | none => rfl
      | some bootFile => exact outside _ 64 bootFile 127 (by omega)
  | some sname =>
      cases config.bootFile with
      | none => exact outside _ 0 sname 63 (by omega)
      | some bootFile =>
          dsimp only
          rw [outside _ 64 bootFile 127 (by omega),
            outside _ 0 sname 63 (by omega)]

/-! ### Answers -/

variable (config around) in
structure SparesOthers (client : Fin 16 → Byte)
    (state after : DhcpServer) : Prop where
  ticks : state.ticks ≤ after.ticks
  ok : LeasesOk config state.leases → LeasesOk config after.leases
  held : ∀ chaddr yiaddr bound, chaddr ≠ blankChaddr → yiaddr ≠ 0 →
    client ≠ chaddr → LeasesOk config state.leases →
    Early around bound state after →
    Held config chaddr yiaddr bound state.leases →
    Held config chaddr yiaddr bound after.leases

variable (config around) in
/-- What a turn of the server does: its messages go to the client that it
answers, and give no address that another client holds. -/
structure Answers (client : Fin 16 → Byte) (state after : DhcpServer)
    (more : List DhcpMessage) : Prop
    extends SparesOthers config around client state after where
  sent : after.sent = state.sent ++ more
  clients : ∀ packet ∈ more, packet.chaddr = client
  ranged : LeasesOk config state.leases →
    ∀ packet ∈ more, packet.yiaddr = 0 ∨ InRange config packet.yiaddr
  free : ∀ chaddr yiaddr bound, chaddr ≠ blankChaddr → yiaddr ≠ 0 →
    client ≠ chaddr → LeasesOk config state.leases →
    Early around bound state after →
    Held config chaddr yiaddr bound state.leases →
    ∀ packet ∈ more, packet.yiaddr ≠ yiaddr

variable {client : Fin 16 → Byte}

theorem SparesOthers.of_leases {after' : DhcpServer}
    (spares : SparesOthers config around client state after)
    (leases : after'.leases = after.leases) (ticks : after'.ticks = after.ticks) :
    SparesOthers config around client state after' := by
  have same : Early around = fun bound state after =>
      ∀ n, state.ticks ≤ n → n < after.ticks → around.time n ≤ bound := rfl
  constructor
  · rw [ticks]
    exact spares.ticks
  · rw [leases]
    exact spares.ok
  · rw [leases, same]
    dsimp only
    rw [ticks]
    exact spares.held

theorem ChosenFor.add {middle : DhcpServer} {address : BitVec 32}
    (chosen : ChosenFor config around client state address middle)
    (time : BitVec 32)
    (given : client ≠ blankChaddr → LeasesOk config state.leases →
      address ≠ 0) :
    SparesOthers config around client state
      (addLease config around client address time middle).2 := by
  have spec := addLease_spec config around client
    address time middle
  constructor
  · exact Nat.le_trans chosen.ticks (Nat.le_of_lt spec.1)
  · intro ok
    exact spec.2.2 (chosen.ranged ok) (fun some_ => given some_ ok)
      (chosen.ok ok)
  · intro chaddr yiaddr bound some_ positive other ok early held
    have front := early.front (Nat.le_of_lt spec.1)
    exact addLease_held chaddr client yiaddr address time bound middle other
      (chosen.free chaddr yiaddr bound some_ positive other ok front held)
      (early.back chosen.ticks)
      (chosen.held chaddr yiaddr bound some_ positive ok front held)

namespace Answers

theorem silent (spares : SparesOthers config around client state after)
    (sent : after.sent = state.sent) :
    Answers config around client state after [] := by
  refine ⟨spares, by rw [sent, List.append_nil], ?_, ?_, ?_⟩
  · simp
  · simp
  · simp

theorem single (spares : SparesOthers config around client state after)
    (packet : DhcpMessage) (sent : after.sent = state.sent ++ [packet])
    (own : packet.chaddr = client)
    (ranged : LeasesOk config state.leases →
      packet.yiaddr = 0 ∨ InRange config packet.yiaddr)
    (free : ∀ chaddr yiaddr bound, chaddr ≠ blankChaddr → yiaddr ≠ 0 →
      client ≠ chaddr → LeasesOk config state.leases →
      Early around bound state after →
      Held config chaddr yiaddr bound state.leases → packet.yiaddr ≠ yiaddr) :
    Answers config around client state after [packet] := by
  refine ⟨spares, sent, ?_, ?_, ?_⟩
  · rw [List.forall_mem_singleton]
    exact own
  · rw [List.forall_mem_singleton]
    exact ranged
  · simp only [List.forall_mem_singleton]
    exact free

end Answers

theorem SparesOthers.refl (state : DhcpServer) :
    SparesOthers config around client state state :=
  ⟨Nat.le_refl _, id, fun _ _ _ _ _ _ _ _ held => held⟩

theorem Spares.others (spares : Spares config around state after) :
    SparesOthers config around client state after :=
  ⟨spares.ticks, spares.ok, fun chaddr yiaddr bound some_ address _ ok early
    held => spares.held chaddr yiaddr bound some_ address ok early held⟩

theorem Answers.quiet (packet : DhcpMessage) (own : packet.chaddr = client)
    (yiaddr : packet.yiaddr = 0) (state : DhcpServer) :
    Answers config around client state
      { state with sent := state.sent ++ [packet] } [packet] := by
  have same : SparesOthers config around client state
      { state with sent := state.sent ++ [packet] } :=
    (SparesOthers.refl state).of_leases rfl rfl
  apply Answers.single same packet rfl own
  · intro _
    exact Or.inl yiaddr
  · intro chaddr address bound _ some_ _ _ _ _
    rw [yiaddr]
    exact some_.symm

/-- A slot that gives no one else an address that is running is written anew. -/
theorem setLease_spares (place : Nat) (isPlace : place < config.maxLeases)
    (lease : DhcpOfferedAddr)
    (blank : lease.chaddr = blankChaddr ∨
      lease.chaddr = (state.leases place).chaddr)
    (address : lease.yiaddr = (state.leases place).yiaddr)
    (apart : ∀ chaddr yiaddr bound, client ≠ chaddr →
      Early around bound state (state.setLease place lease).tick →
      ¬Gives chaddr yiaddr bound (state.leases place)) :
    SparesOthers config around client state
      (state.setLease place lease).tick := by
  constructor
  · exact Nat.le_succ _
  · intro ok
    exact ok.rewrite place isPlace lease blank address
  · intro chaddr yiaddr bound _ _ other _ early held
    obtain ⟨i, isI, gives⟩ := held
    refine ⟨i, isI, ?_⟩
    have differ : i ≠ place := by
      intro here
      rw [here] at gives
      exact apart chaddr yiaddr bound other early gives
    dsimp only [DhcpServer.setLease, DhcpServer.tick]
    rw [Function.update_of_ne differ]
    exact gives

/-! ### Each kind of message -/

theorem sendOffer_answers (oldpacket : DhcpMessage) (state : DhcpServer) :
    ∃ after more, sendOffer config around oldpacket state = some after ∧
      Answers config around oldpacket.chaddr state after more := by
  obtain ⟨packet, started, own, _, options⟩ :=
    initPacket_spec config around oldpacket DHCPOFFER
  have chosen := chooseAddress_chosen config around
    oldpacket state
  unfold sendOffer
  simp only [started, Option.bind_eq_bind, Option.bind_some, own]
  split
  · exact ⟨_, [], rfl, Answers.silent chosen.others chosen.sent⟩
  · next some_ =>
      have added := chosen.add config.offerTime fun _ _ => some_
      have spec := addLease_spec config around
        oldpacket.chaddr (chooseAddress config around oldpacket state).1
        config.offerTime (chooseAddress config around oldpacket state).2.2
      split
      · obtain ⟨rest, built, _⟩ := addLeaseOptions_spec _ around
          packet.rest DHCPOFFER (offerLeaseTime config oldpacket
            (chooseAddress config around oldpacket state).2.1) options
        simp only [built, Option.bind_some]
        refine ⟨_, [addBootpOptions config { packet with
          yiaddr := (chooseAddress config around oldpacket state).1
          chaddr := oldpacket.chaddr
          rest := rest }], rfl, ?_⟩
        apply Answers.single
        · exact added.of_leases rfl rfl
        · dsimp only
          rw [spec.2.1, chosen.sent]
        · rfl
        · exact chosen.ranged
        · intro chaddr yiaddr bound client positive other ok early held
          exact chosen.free chaddr yiaddr bound client positive other ok
            (early.front (Nat.le_of_lt spec.1)) held
      · exact ⟨_, [], rfl, Answers.silent added (spec.2.1.trans chosen.sent)⟩

variable (config around) in
theorem sendNAK_answers (oldpacket : DhcpMessage) (state : DhcpServer) :
    ∃ packet, sendNAK config around oldpacket state =
        some { state with sent := state.sent ++ [packet] } ∧
      packet.chaddr = oldpacket.chaddr ∧ packet.yiaddr = 0 := by
  obtain ⟨packet, started, own, yiaddr, _⟩ :=
    initPacket_spec config around oldpacket DHCPNAK
  unfold sendNAK
  simp only [started, Option.bind_eq_bind, Option.bind_some]
  exact ⟨packet, rfl, own, yiaddr⟩

variable (config around) in
theorem sendInform_answers (oldpacket : DhcpMessage) (state : DhcpServer) :
    ∃ packet, sendInform config around oldpacket state =
        some { state with sent := state.sent ++ [packet] } ∧
      packet.chaddr = oldpacket.chaddr ∧ packet.yiaddr = 0 := by
  obtain ⟨packet, started, own, yiaddr, options⟩ :=
    initPacket_spec config around oldpacket DHCPACK
  have begins : BeginsWith packet.rest
      [messageTypeField DHCPACK, simpleField DHCP_SERVER_ID config.server] := by
    refine ⟨[], options, ?_⟩
    rw [List.append_nil, List.forall_mem_cons, List.forall_mem_singleton]
    refine ⟨plain_messageType DHCPACK, ?_⟩
    change DHCP_SERVER_ID ≠ _ ∧ DHCP_SERVER_ID ≠ _ ∧ DHCP_SERVER_ID ≠ _
    decide
  obtain ⟨rest, run, _⟩ := begins.add_strings
    (config.options.filter fun field => field.code ≠ DHCP_LEASE_TIME)
    (fun field member => config.plain field (List.mem_of_mem_filter member))
  unfold sendInform addConfigOptions
  simp only [started, run, Option.bind_eq_bind, Option.bind_some]
  exact ⟨_, rfl, own, yiaddr⟩

/-- The time that a message grants. -/
def grantedTime (packet : DhcpMessage) : Option (BitVec 32) :=
  (getOption packet.rest DHCP_LEASE_TIME).map
    fun place => ntohl (wordAt packet.rest place)

theorem ofBytes_toBytes (word : BitVec 32) : ofBytes 32 (toBytes word) = word := by
  apply BitVec.eq_of_getLsbD_eq
  intro index below
  rw [getLsbD_ofBytes, bitAt_toBytes (by decide), decide_eq_true below,
    Bool.true_and]

variable (config around) in
/-- An acknowledgement grants the time for which the lease is put into the
table. -/
theorem sendACK_spec (oldpacket : DhcpMessage) (yiaddr : BitVec 32)
    (state : DhcpServer) :
    ∃ packet, packet.chaddr = oldpacket.chaddr ∧ packet.yiaddr = yiaddr ∧
      grantedTime packet = some (ackLeaseTime config oldpacket) ∧
      sendACK config around oldpacket yiaddr state =
        some (addLease config around oldpacket.chaddr yiaddr
          (ackLeaseTime config oldpacket)
          { state with sent := state.sent ++ [packet] }).2 := by
  obtain ⟨packet, started, own, _, options⟩ :=
    initPacket_spec config around oldpacket DHCPACK
  obtain ⟨rest, built, begins⟩ := addLeaseOptions_spec _ around
    packet.rest DHCPACK (ackLeaseTime config oldpacket) options
  have whole := begins.congr (addBootpOptions_rest config
    { packet with yiaddr := yiaddr, rest := rest })
  obtain ⟨place, found, data⟩ := whole.found DHCP_LEASE_TIME (by decide)
    (simpleField DHCP_LEASE_TIME (htonl (ackLeaseTime config oldpacket))) rfl
  refine ⟨addBootpOptions config { packet with yiaddr := yiaddr, rest := rest },
    own, rfl, ?_, ?_⟩
  · have four : (simpleField DHCP_LEASE_TIME
        (htonl (ackLeaseTime config oldpacket))).data =
          toBytes (htonl (ackLeaseTime config oldpacket)) := rfl
    rw [four, toBytes_length] at data
    unfold grantedTime wordAt
    rw [found, Option.map_some, data, ofBytes_toBytes, ntohl_htonl]
  · unfold sendACK
    simp only [started, built, Option.bind_eq_bind, Option.bind_some, own]
    rfl

variable (config around) in
theorem sendACK_answers (oldpacket : DhcpMessage) (state : DhcpServer)
    (place : Nat)
    (known : findLeaseByChaddr config state.leases oldpacket.chaddr =
      some place) :
    ∃ after more, sendACK config around oldpacket (state.leases place).yiaddr
        state = some after ∧
      Answers config around oldpacket.chaddr state after more := by
  have isPlace := findLeaseByChaddr_some place known
  obtain ⟨packet, own, yiaddr, _, run⟩ := sendACK_spec config around oldpacket
    (state.leases place).yiaddr state
  have chosen := own_chosen
    (Spares.refl config around
      { state with sent := state.sent ++ [packet] })
    oldpacket.chaddr place known
  have spec := addLease_spec config around
    oldpacket.chaddr (state.leases place).yiaddr (ackLeaseTime config oldpacket)
    { state with sent := state.sent ++ [packet] }
  have added := chosen.add (ackLeaseTime config oldpacket) (by
    intro some_ ok
    apply ok.given place isPlace.1
    rw [isPlace.2]
    exact some_)
  have spares : SparesOthers config around oldpacket.chaddr state
      (addLease config around oldpacket.chaddr (state.leases place).yiaddr
        (ackLeaseTime config oldpacket)
        { state with sent := state.sent ++ [packet] }).2 :=
    ⟨added.ticks, added.ok, added.held⟩
  refine ⟨_, [packet], run, ?_⟩
  apply Answers.single spares packet spec.2.1 own
  · rw [yiaddr]
    exact chosen.ranged
  · intro chaddr address bound client positive other ok early held
    rw [yiaddr]
    exact chosen.free chaddr address bound client positive other ok
      (early.front (Nat.le_of_lt spec.1)) held

theorem knownRequest_answers (packet : DhcpMessage) (state : DhcpServer)
    (place : Nat)
    (known : findLeaseByChaddr config state.leases packet.chaddr =
      some place) :
    ∃ after more, knownRequest config around packet (state.leases place) state =
        some after ∧
      Answers config around packet.chaddr state after more := by
  have ack := sendACK_answers _ around packet state place known
  obtain ⟨nak, run, own, yiaddr⟩ := sendNAK_answers config around packet state
  unfold knownRequest
  dsimp only
  split
  · split
    · exact ack
    · exact ⟨state, [], rfl, Answers.silent (SparesOthers.refl state) rfl⟩
  · split
    · split
      · exact ack
      · exact ⟨_, [nak], run, Answers.quiet nak own yiaddr state⟩
    · split
      · exact ack
      · exact ⟨_, [nak], run, Answers.quiet nak own yiaddr state⟩

theorem unknownRequest_answers (packet : DhcpMessage) (state : DhcpServer) :
    ∃ after more, unknownRequest config around packet state = some after ∧
      Answers config around packet.chaddr state after more := by
  have nak (state : DhcpServer) : ∃ after more,
      sendNAK config around packet state = some after ∧
        Answers config around packet.chaddr state after more := by
    obtain ⟨nak, run, own, yiaddr⟩ := sendNAK_answers config around packet state
    exact ⟨_, [nak], run, Answers.quiet nak own yiaddr state⟩
  unfold unknownRequest
  split
  · next requested _ =>
      split
      · next place found =>
          have isPlace := findLeaseByYiaddr_some place found
          dsimp only [leaseExpired]
          split
          · next expired =>
              have spares : SparesOthers config around packet.chaddr state
                  (state.setLease place { state.leases place with
                    chaddr := blankChaddr }).tick := by
                apply setLease_spares place isPlace.1
                · exact Or.inl rfl
                · rfl
                · intro chaddr yiaddr bound _ early gives
                  have now := early state.ticks (Nat.le_refl _)
                    (Nat.lt_succ_self _)
                  exact BitVec.not_lt.mpr (BitVec.le_trans now gives.2.2)
                    (of_decide_eq_true expired)
              exact ⟨_, [], rfl, Answers.silent spares rfl⟩
          · obtain ⟨after, more, run, answers⟩ := nak state.tick
            have spares : SparesOthers config around packet.chaddr state
                after := by
              have ticks := answers.ticks
              refine ⟨Nat.le_trans (Nat.le_succ _) ticks, answers.ok, ?_⟩
              intro chaddr yiaddr bound client positive other ok early held
              exact answers.held chaddr yiaddr bound client positive other ok
                (early.back (Nat.le_succ _)) held
            refine ⟨after, more, run, spares, answers.sent, answers.clients,
              answers.ranged, ?_⟩
            intro chaddr yiaddr bound client positive other ok early held
            exact answers.free chaddr yiaddr bound client positive other ok
              (early.back (Nat.le_succ _)) held
      · exact nak state
  · exact ⟨state, [], rfl, Answers.silent (SparesOthers.refl state) rfl⟩

variable (config around) in
/-- Every message is answered, or passed over, without harm to other clients. -/
theorem udhcpdPacket_answers (packet : DhcpMessage) (state : DhcpServer) :
    ∃ after more, udhcpdPacket config around packet state = some after ∧
      Answers config around packet.chaddr state after more := by
  have nothing : ∃ after more, some state = some after ∧
      Answers config around packet.chaddr state after more :=
    ⟨state, [], rfl, Answers.silent (SparesOthers.refl state) rfl⟩
  have own (place : Nat)
      (known : findLeaseByChaddr config state.leases packet.chaddr =
        some place) (lease : DhcpOfferedAddr)
      (blank : lease.chaddr = blankChaddr ∨
        lease.chaddr = (state.leases place).chaddr)
      (address : lease.yiaddr = (state.leases place).yiaddr) :
      ∃ after more, some (state.setLease place lease).tick = some after ∧
        Answers config around packet.chaddr state after more := by
    have isPlace := findLeaseByChaddr_some place known
    have spares : SparesOthers config around packet.chaddr state
        (state.setLease place lease).tick := by
      apply setLease_spares place isPlace.1 lease blank address
      intro chaddr yiaddr bound other _ gives
      exact other (isPlace.2.symm.trans gives.1)
    exact ⟨_, [], rfl, Answers.silent spares rfl⟩
  unfold udhcpdPacket
  split
  · exact nothing
  · next typePlace _ =>
      dsimp only
      split
      · exact sendOffer_answers packet state
      split
      · split
        · next place known =>
            exact knownRequest_answers packet state place known
        · exact unknownRequest_answers packet state
      split
      · split
        · next place known =>
            exact own place known _ (Or.inl rfl) rfl
        · exact nothing
      split
      · split
        · next place known =>
            exact own place known _ (Or.inr rfl) rfl
        · exact nothing
      split
      · obtain ⟨reply, run, client, yiaddr⟩ := sendInform_answers config around packet state
        exact ⟨_, [reply], run, Answers.quiet reply client yiaddr state⟩
      · exact nothing

end XR872.Network
