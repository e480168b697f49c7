/-
Who holds an address.

Two slots of the table never share a client or an address. As long as the clock
is not past the end of a lease, its slot is given to nobody else, and no other
client is given its address.
-/

import XR872.Network.DhcpServer

namespace XR872.Network

open BitView
open Memories
open TaggedFields

theorem ntohl_htonl (word : BitVec 32) : ntohl (htonl word) = word := by
  unfold ntohl htonl
  apply BitVec.eq_of_getLsbD_eq
  intro index below
  simp only [BitVec.getLsbD_append, BitVec.getLsbD_extractLsb']
  interval_cases index
  all_goals simp

variable (config : DhcpConfig) (around : DhcpSurroundings)

def InRange (addr : BitVec 32) : Prop :=
  ntohl config.start ≤ ntohl addr ∧ ntohl addr ≤ ntohl config.last

/-- What the table always is. -/
structure LeasesOk (leases : Nat → DhcpOfferedAddr) : Prop where
  chaddrs : ∀ i j, i < config.maxLeases → j < config.maxLeases → i ≠ j →
    (leases i).chaddr = (leases j).chaddr → (leases i).chaddr = blankChaddr
  yiaddrs : ∀ i j, i < config.maxLeases → j < config.maxLeases → i ≠ j →
    (leases i).yiaddr = (leases j).yiaddr → (leases i).yiaddr = 0
  given : ∀ i, i < config.maxLeases → (leases i).chaddr ≠ blankChaddr →
    (leases i).yiaddr ≠ 0
  ranged : ∀ i, i < config.maxLeases → (leases i).yiaddr = 0 ∨
    InRange config (leases i).yiaddr

def Gives (chaddr : Fin 16 → Byte) (yiaddr bound : BitVec 32)
    (lease : DhcpOfferedAddr) : Prop :=
  lease.chaddr = chaddr ∧ lease.yiaddr = yiaddr ∧ bound ≤ lease.expires

def Held (chaddr : Fin 16 → Byte) (yiaddr bound : BitVec 32)
    (leases : Nat → DhcpOfferedAddr) : Prop :=
  ∃ i, i < config.maxLeases ∧ Gives chaddr yiaddr bound (leases i)

def Early (bound : BitVec 32) (state after : DhcpServer) : Prop :=
  ∀ n, state.ticks ≤ n → n < after.ticks → around.time n ≤ bound

variable {config around} {leases : Nat → DhcpOfferedAddr}
  {chaddr : Fin 16 → Byte} {yiaddr bound : BitVec 32}
  {state after : DhcpServer}

theorem Early.front {middle : DhcpServer} (early : Early around bound state after)
    (le : middle.ticks ≤ after.ticks) : Early around bound state middle :=
  fun n from_ below => early n from_ (by omega)

theorem Early.back {middle : DhcpServer} (early : Early around bound state after)
    (le : state.ticks ≤ middle.ticks) : Early around bound middle after :=
  fun n from_ below => early n (by omega) below

/-! ### The search for an old lease -/

theorem oldestFrom_some (leases : Nat → DhcpOfferedAddr) (turns i : Nat)
    (oldestLease : BitVec 32) (oldest : Option Nat) (place : Nat)
    (found : oldestFrom leases turns i oldestLease oldest = some place) :
    oldest = some place ∨ (i ≤ place ∧ place < i + turns ∧
      (leases place).expires < oldestLease) := by
  induction turns generalizing i oldestLease oldest with
  | zero => exact Or.inl found
  | succ turns ih =>
      rw [oldestFrom] at found
      split at found
      · next older =>
          cases ih _ _ _ found with
          | inl same =>
              cases same
              exact Or.inr ⟨Nat.le_refl _, by omega, older⟩
          | inr later =>
              exact Or.inr ⟨by omega, by omega, BitVec.lt_trans later.2.2 older⟩
      · cases ih _ _ _ found with
        | inl same => exact Or.inl same
        | inr later => exact Or.inr ⟨by omega, by omega, later.2.2⟩

theorem oldestFrom_none (leases : Nat → DhcpOfferedAddr) (turns i : Nat)
    (oldestLease : BitVec 32) (oldest : Option Nat)
    (found : oldestFrom leases turns i oldestLease oldest = none) :
    oldest = none ∧ ∀ place, i ≤ place → place < i + turns →
      oldestLease ≤ (leases place).expires := by
  induction turns generalizing i oldestLease oldest with
  | zero => exact ⟨found, fun place from_ below => by omega⟩
  | succ turns ih =>
      rw [oldestFrom] at found
      split at found
      · next older =>
          have none_ := (ih _ _ _ found).1
          cases none_
      · next newer =>
          obtain ⟨none_, later⟩ := ih _ _ _ found
          refine ⟨none_, ?_⟩
          intro place from_ below
          by_cases here : place = i
          · rw [here]
            exact BitVec.not_lt.mp newer
          · exact later place (by omega) (by omega)

/-! ### A lease is put into the table -/

theorem clearLease_apart (i : Nat) (below : i < config.maxLeases) :
    (chaddr ≠ blankChaddr →
      (clearLease config leases chaddr yiaddr i).chaddr ≠ chaddr) ∧
    (yiaddr ≠ 0 →
      (clearLease config leases chaddr yiaddr i).yiaddr ≠ yiaddr) := by
  unfold clearLease
  split
  · exact ⟨fun some_ => some_.symm, fun some_ => some_.symm⟩
  · next kept =>
      constructor
      · intro some_ same
        exact kept ⟨below, Or.inl ⟨some_, same⟩⟩
      · intro some_ same
        exact kept ⟨below, Or.inr ⟨some_, same⟩⟩

variable (config leases chaddr yiaddr) in
theorem clearLease_cases (i : Nat) :
    clearLease config leases chaddr yiaddr i = blankLease ∨
      clearLease config leases chaddr yiaddr i = leases i := by
  unfold clearLease
  split
  · exact Or.inl rfl
  · exact Or.inr rfl

namespace LeasesOk

theorem blank (leases : Nat → DhcpOfferedAddr)
    (blank : ∀ i, leases i = blankLease) : LeasesOk config leases := by
  constructor
  · intro i j _ _ _ _
    rw [blank]
    rfl
  · intro i j _ _ _ _
    rw [blank]
    rfl
  · intro i _ some_
    rw [blank] at some_
    exact absurd rfl some_
  · intro i _
    rw [blank]
    exact Or.inl rfl

theorem clear (ok : LeasesOk config leases) :
    LeasesOk config (clearLease config leases chaddr yiaddr) := by
  have cases_ := clearLease_cases config leases chaddr yiaddr
  constructor
  · intro i j isI isJ differ same
    cases cases_ i with
    | inl blank => rw [blank]; rfl
    | inr keptI =>
        cases cases_ j with
        | inl blank => rw [same, blank]; rfl
        | inr keptJ =>
            rw [keptI, keptJ] at same
            rw [keptI]
            exact ok.chaddrs i j isI isJ differ same
  · intro i j isI isJ differ same
    cases cases_ i with
    | inl blank => rw [blank]; rfl
    | inr keptI =>
        cases cases_ j with
        | inl blank => rw [same, blank]; rfl
        | inr keptJ =>
            rw [keptI, keptJ] at same
            rw [keptI]
            exact ok.yiaddrs i j isI isJ differ same
  · intro i isI some_
    cases cases_ i with
    | inl blank => rw [blank] at some_; exact absurd rfl some_
    | inr kept =>
        rw [kept] at some_ ⊢
        exact ok.given i isI some_
  · intro i isI
    cases cases_ i with
    | inl blank => rw [blank]; exact Or.inl rfl
    | inr kept => rw [kept]; exact ok.ranged i isI

/-- A slot may be written where no other has its client or its address. -/
theorem put (ok : LeasesOk config leases) (place : Nat)
    (lease : DhcpOfferedAddr)
    (chaddrs : lease.chaddr ≠ blankChaddr → ∀ i, i < config.maxLeases →
      i ≠ place → (leases i).chaddr ≠ lease.chaddr)
    (yiaddrs : lease.yiaddr ≠ 0 → ∀ i, i < config.maxLeases →
      i ≠ place → (leases i).yiaddr ≠ lease.yiaddr)
    (given : lease.chaddr ≠ blankChaddr → lease.yiaddr ≠ 0)
    (ranged : lease.yiaddr = 0 ∨ InRange config lease.yiaddr) :
    LeasesOk config (Function.update leases place lease) := by
  have at_ (i : Nat) : Function.update leases place lease i =
      if i = place then lease else leases i := Function.update_apply _ _ _ _
  constructor
  · intro i j isI isJ differ same
    rw [at_] at same ⊢
    rw [at_] at same
    by_cases blank : lease.chaddr = blankChaddr
    · split_ifs at same ⊢ with first second second
      · exact blank
      · exact blank
      · rw [same, blank]
      · exact ok.chaddrs i j isI isJ differ same
    · split_ifs at same ⊢ with first second second
      · omega
      · exact absurd same.symm (chaddrs blank j isJ second)
      · exact absurd same (chaddrs blank i isI first)
      · exact ok.chaddrs i j isI isJ differ same
  · intro i j isI isJ differ same
    rw [at_] at same ⊢
    rw [at_] at same
    by_cases blank : lease.yiaddr = 0
    · split_ifs at same ⊢ with first second second
      · exact blank
      · exact blank
      · rw [same, blank]
      · exact ok.yiaddrs i j isI isJ differ same
    · split_ifs at same ⊢ with first second second
      · omega
      · exact absurd same.symm (yiaddrs blank j isJ second)
      · exact absurd same (yiaddrs blank i isI first)
      · exact ok.yiaddrs i j isI isJ differ same
  · intro i isI some_
    rw [at_] at some_ ⊢
    split_ifs at some_ ⊢ with here
    · exact given some_
    · exact ok.given i isI some_
  · intro i isI
    rw [at_]
    split_ifs with here
    · exact ranged
    · exact ok.ranged i isI

/-- A slot keeps its address and its client, or gives the client up. -/
theorem rewrite (ok : LeasesOk config leases) (place : Nat)
    (isPlace : place < config.maxLeases) (lease : DhcpOfferedAddr)
    (client : lease.chaddr = blankChaddr ∨
      lease.chaddr = (leases place).chaddr)
    (address : lease.yiaddr = (leases place).yiaddr) :
    LeasesOk config (Function.update leases place lease) := by
  apply ok.put
  · intro some_ i isI differ same
    have own := client.resolve_left some_
    rw [own] at same some_
    exact some_ (same ▸ ok.chaddrs i place isI isPlace differ same)
  · intro some_ i isI differ same
    rw [address] at same some_
    exact some_ (same ▸ ok.yiaddrs i place isI isPlace differ same)
  · intro some_
    have own := client.resolve_left some_
    rw [own] at some_
    rw [address]
    exact ok.given place isPlace some_
  · rw [address]
    exact ok.ranged place isPlace

end LeasesOk

variable (config around) in
/-- The lease is in the table, and the clock was read once or twice. -/
theorem addLease_spec (chaddr : Fin 16 → Byte) (yiaddr lease : BitVec 32)
    (state : DhcpServer) :
    state.ticks < (addLease config around chaddr yiaddr lease state).2.ticks ∧
    (addLease config around chaddr yiaddr lease state).2.sent = state.sent ∧
    ((yiaddr = 0 ∨ InRange config yiaddr) →
      (chaddr ≠ blankChaddr → yiaddr ≠ 0) →
      LeasesOk config state.leases →
      LeasesOk config
        (addLease config around chaddr yiaddr lease state).2.leases) := by
  unfold addLease oldestExpiredLease
  dsimp only
  split
  · next place found =>
      refine ⟨by simp [DhcpServer.tick, DhcpServer.setLease], rfl, ?_⟩
      intro ranged given ok
      apply ok.clear.put
      · intro some_ i isI _
        exact (clearLease_apart i isI).1 some_
      · intro some_ i isI _
        exact (clearLease_apart i isI).2 some_
      · exact given
      · exact ranged
  · exact ⟨Nat.lt_succ_self _, rfl, fun _ _ ok => ok.clear⟩

/-- Another client's lease on another address leaves a lease alone. -/
theorem addLease_held (chaddr other : Fin 16 → Byte)
    (yiaddr address lease bound : BitVec 32) (state : DhcpServer)
    (clients : other ≠ chaddr) (addresses : address ≠ yiaddr)
    (early : Early around bound state
      (addLease config around other address lease state).2)
    (held : Held config chaddr yiaddr bound state.leases) :
    Held config chaddr yiaddr bound
      (addLease config around other address lease state).2.leases := by
  obtain ⟨i, isI, gives⟩ := held
  obtain ⟨client, atAddress, running⟩ := gives
  have kept : clearLease config state.leases other address i =
      state.leases i := by
    apply if_neg
    rintro ⟨_, hit⟩
    cases hit with
    | inl same => exact clients (same.2.symm.trans client)
    | inr same => exact addresses (same.2.symm.trans atAddress)
  have ticks := (addLease_spec config around other
    address lease state).1
  have now := early state.ticks (Nat.le_refl _) ticks
  unfold addLease oldestExpiredLease
  dsimp only
  split
  · next place found =>
      have expired := (oldestFrom_some _ _ _ _ _ place found).resolve_left
        (by simp)
      have apart : i ≠ place := by
        intro same
        rw [← same, kept] at expired
        exact BitVec.not_lt.mpr (BitVec.le_trans now running) expired.2.2
      refine ⟨i, isI, ?_⟩
      dsimp only [DhcpServer.setLease, DhcpServer.tick]
      rw [Function.update_of_ne apart, kept]
      exact ⟨client, atAddress, running⟩
  · refine ⟨i, isI, ?_⟩
    change Gives chaddr yiaddr bound (clearLease _ _ _ _ i)
    rw [kept]
    exact ⟨client, atAddress, running⟩

variable (config around) in
/-- Where a slot has the client and the clock is running, the client's new lease
is in the table. -/
theorem addLease_own (chaddr : Fin 16 → Byte) (yiaddr lease : BitVec 32)
    (state : DhcpServer) (some_ : chaddr ≠ blankChaddr) (i : Nat)
    (isI : i < config.maxLeases) (client : (state.leases i).chaddr = chaddr)
    (running : 0 < around.time state.ticks) :
    (addLease config around chaddr yiaddr lease state).2.ticks =
        state.ticks + 2 ∧
      Held config chaddr yiaddr (around.time (state.ticks + 1) + lease)
        (addLease config around chaddr yiaddr lease state).2.leases := by
  have cleared : clearLease config state.leases chaddr yiaddr i =
      blankLease := if_pos ⟨isI, Or.inl ⟨some_, client⟩⟩
  unfold addLease oldestExpiredLease
  dsimp only
  split
  · next place found =>
      have expired := (oldestFrom_some _ _ _ _ _ place found).resolve_left
        (by simp)
      refine ⟨rfl, place, by omega, ?_⟩
      dsimp only [DhcpServer.setLease, DhcpServer.tick]
      rw [Function.update_self]
      exact ⟨rfl, rfl, BitVec.le_refl _⟩
  · next none_ =>
      have full := (oldestFrom_none _ _ _ _ _ none_).2 i (Nat.zero_le _)
        (by omega)
      rw [cleared] at full
      exact absurd running (BitVec.not_lt.mpr full)

/-! ### Free addresses -/

theorem findLeaseByChaddr_some (place : Nat)
    (found : findLeaseByChaddr config leases chaddr = some place) :
    place < config.maxLeases ∧ (leases place).chaddr = chaddr := by
  have result := Slots.search_eq_some found
  exact ⟨by omega, of_decide_eq_true result.2.2.1⟩

theorem findLeaseByYiaddr_some (place : Nat)
    (found : findLeaseByYiaddr config leases yiaddr = some place) :
    place < config.maxLeases ∧ (leases place).yiaddr = yiaddr := by
  have result := Slots.search_eq_some found
  exact ⟨by omega, of_decide_eq_true result.2.2.1⟩

variable (config around chaddr yiaddr bound) in
/-- Looking whether an address is free changes no lease, and an address that is
held is not free. -/
theorem addressFree_spec (checkExpired : Bool) (address : BitVec 32)
    (state : DhcpServer) :
    state.ticks ≤
        (addressFree config around checkExpired address state).2.ticks ∧
    (addressFree config around checkExpired address state).2.leases =
      state.leases ∧
    (addressFree config around checkExpired address state).2.sent =
      state.sent ∧
    (LeasesOk config state.leases → yiaddr ≠ 0 →
      Early around bound state
        (addressFree config around checkExpired address state).2 →
      Held config chaddr yiaddr bound state.leases →
      (addressFree config around checkExpired address state).1 = true →
      address ≠ yiaddr) := by
  unfold addressFree
  cases found : findLeaseByYiaddr config state.leases address with
  | none =>
      refine ⟨Nat.le_refl _, rfl, rfl, ?_⟩
      intro _ _ _ held _ same
      obtain ⟨i, isI, _, atAddress, _⟩ := held
      have missing := Slots.search_eq_none found i (Nat.zero_le _) (by omega)
      rw [decide_eq_false_iff_not] at missing
      exact missing (atAddress.trans same.symm)
  | some place =>
      have isPlace := findLeaseByYiaddr_some place found
      cases checkExpired with
      | false => exact ⟨Nat.le_refl _, rfl, rfl, fun _ _ _ _ free => by cases free⟩
      | true =>
          refine ⟨Nat.le_succ _, rfl, rfl, ?_⟩
          intro ok some_ early held expired same
          obtain ⟨i, isI, _, atAddress, running⟩ := held
          have here : i = place := by
            by_contra differ
            exact some_ (atAddress ▸ ok.yiaddrs i place isI isPlace.1 differ
              (by rw [atAddress, isPlace.2, same]))
          have now := early state.ticks (Nat.le_refl _) (Nat.lt_succ_self _)
          rw [here] at running
          exact BitVec.not_lt.mpr (BitVec.le_trans now running)
            (of_decide_eq_true expired)

variable (config around)

/-- From one state to another without an answer: the table stays what it always
is, and a lease that is running stays. -/
structure Spares (state after : DhcpServer) : Prop where
  ticks : state.ticks ≤ after.ticks
  sent : after.sent = state.sent
  ok : LeasesOk config state.leases → LeasesOk config after.leases
  held : ∀ chaddr yiaddr bound, chaddr ≠ blankChaddr → yiaddr ≠ 0 →
    LeasesOk config state.leases → Early around bound state after →
    Held config chaddr yiaddr bound state.leases →
    Held config chaddr yiaddr bound after.leases

structure Chosen (state : DhcpServer) (address : BitVec 32)
    (after : DhcpServer) : Prop extends Spares config around state after where
  ranged : LeasesOk config state.leases →
    address = 0 ∨ InRange config address
  free : ∀ chaddr yiaddr bound, chaddr ≠ blankChaddr → yiaddr ≠ 0 →
    LeasesOk config state.leases → Early around bound state after →
    Held config chaddr yiaddr bound state.leases → address ≠ yiaddr

variable {config around}

variable (config around) in
theorem Spares.refl (state : DhcpServer) : Spares config around state state :=
  ⟨Nat.le_refl _, rfl, id, fun _ _ _ _ _ _ _ held => held⟩

theorem Spares.of_leases (ticks : state.ticks ≤ after.ticks)
    (sent : after.sent = state.sent) (leases : after.leases = state.leases) :
    Spares config around state after := by
  refine ⟨ticks, sent, ?_, ?_⟩
  · rw [leases]
    exact id
  · intro chaddr yiaddr bound _ _ _ _ held
    rw [leases]
    exact held

theorem Spares.trans {middle : DhcpServer}
    (first : Spares config around state middle)
    (second : Spares config around middle after) :
    Spares config around state after := by
  refine ⟨Nat.le_trans first.ticks second.ticks, second.sent.trans first.sent,
    fun ok => second.ok (first.ok ok), ?_⟩
  intro chaddr yiaddr bound client address ok early held
  exact second.held chaddr yiaddr bound client address (first.ok ok)
    (early.back first.ticks) (first.held chaddr yiaddr bound client address ok
      (early.front second.ticks) held)

theorem Chosen.behind {middle : DhcpServer} {address : BitVec 32}
    (first : Spares config around state middle)
    (second : Chosen config around middle address after) :
    Chosen config around state address after := by
  refine ⟨first.trans second.toSpares, fun ok => second.ranged (first.ok ok),
    ?_⟩
  intro chaddr yiaddr bound client some_ ok early held
  exact second.free chaddr yiaddr bound client some_ (first.ok ok)
    (early.back first.ticks) (first.held chaddr yiaddr bound client some_ ok
      (early.front second.ticks) held)

theorem Chosen.none (spares : Spares config around state after) :
    Chosen config around state 0 after :=
  ⟨spares, fun _ => Or.inl rfl, fun _ _ _ _ some_ _ _ _ => some_.symm⟩

theorem addressFree_spares (checkExpired : Bool) (address : BitVec 32)
    (state : DhcpServer) :
    Spares config around state
      (addressFree config around checkExpired address state).2 := by
  have spec := addressFree_spec config around blankChaddr 0 0 checkExpired address state
  exact Spares.of_leases spec.1 spec.2.2.1 spec.2.1

theorem addressFree_chosen (checkExpired : Bool) (address : BitVec 32)
    (state : DhcpServer) (ranged : InRange config address)
    (free : (addressFree config around checkExpired address state).1 = true) :
    Chosen config around state address
      (addressFree config around checkExpired address state).2 := by
  refine ⟨addressFree_spares checkExpired address state, fun _ => Or.inr ranged,
    ?_⟩
  intro chaddr yiaddr bound _ some_ ok early held
  exact (addressFree_spec _ _ chaddr yiaddr bound checkExpired address
    state).2.2.2 ok some_ early held free

theorem checkIp_ticks (address : BitVec 32) (state : DhcpServer) :
    state.ticks ≤ (checkIp config around address state).2.ticks := by
  unfold checkIp
  dsimp only
  split
  · exact Nat.le_of_lt (addLease_spec _ _ blankChaddr address config.conflictTime
      { state with probes := state.probes + 1 }).1
  · exact Nat.le_refl _

theorem Chosen.probe {address : BitVec 32} {middle : DhcpServer}
    (chosen : Chosen config around state address middle)
    (ranged : InRange config address) :
    Spares config around state (checkIp config around address middle).2 := by
  unfold checkIp
  dsimp only
  split
  · have spec := addLease_spec config around blankChaddr
      address config.conflictTime { middle with probes := middle.probes + 1 }
    refine ⟨Nat.le_trans chosen.ticks (Nat.le_of_lt spec.1),
      spec.2.1.trans chosen.sent, ?_, ?_⟩
    · intro ok
      exact spec.2.2 (Or.inr ranged) (fun some_ => absurd rfl some_)
        (chosen.ok ok)
    · intro chaddr yiaddr bound client some_ ok early held
      have front : Early around bound state middle :=
        early.front (Nat.le_of_lt spec.1)
      exact addLease_held chaddr blankChaddr yiaddr address config.conflictTime
        bound { middle with probes := middle.probes + 1 } client.symm
        (chosen.free chaddr yiaddr bound client some_ ok front held)
        (early.back chosen.ticks)
        (chosen.held chaddr yiaddr bound client some_ ok front held)
  · exact chosen.toSpares.trans (Spares.of_leases (Nat.le_refl _) rfl rfl)

theorem findAddressFrom_chosen (checkExpired : Bool) (turns addr : Nat)
    (state : DhcpServer) (from_ : (ntohl config.start).toNat ≤ addr)
    (to_ : addr + turns ≤ (ntohl config.last).toNat + 1) :
    Chosen config around state
      (findAddressFrom config around checkExpired turns addr state).1
      (findAddressFrom config around checkExpired turns addr state).2 := by
  induction turns generalizing addr state with
  | zero => exact Chosen.none (Spares.refl _ _ state)
  | succ turns ih =>
      have next := fun state => ih (addr + 1) state (by omega) (by omega)
      have low := config.bounded
      have host : ntohl (htonl (BitVec.ofNat 32 addr)) =
          BitVec.ofNat 32 addr := ntohl_htonl _
      have ranged : InRange config (htonl (BitVec.ofNat 32 addr)) := by
        unfold InRange
        rw [host, BitVec.le_def, BitVec.le_def, BitVec.toNat_ofNat,
          Nat.mod_eq_of_lt (by omega)]
        omega
      rw [findAddressFrom]
      split
      · exact next state
      · dsimp only
        split
        · next free =>
            have chosen := addressFree_chosen checkExpired _ state ranged free
            have probed := chosen.probe ranged
            split
            · exact Chosen.behind probed (next _)
            · next untaken =>
                refine ⟨probed, chosen.ranged, ?_⟩
                intro chaddr yiaddr bound client some_ ok early held
                apply chosen.free chaddr yiaddr bound client some_ ok _ held
                exact early.front (checkIp_ticks _ _)
        · exact Chosen.behind (addressFree_spares checkExpired _ state) (next _)

variable (config around) in
theorem findAddress_chosen (checkExpired : Bool) (state : DhcpServer) :
    Chosen config around state (findAddress config around checkExpired state).1
      (findAddress config around checkExpired state).2 := by
  by_cases some_ : (ntohl config.start).toNat ≤ (ntohl config.last).toNat + 1
  · apply findAddressFrom_chosen
    · exact Nat.le_refl _
    · omega
  · have empty : (ntohl config.last).toNat + 1 - (ntohl config.start).toNat =
        0 := by omega
    unfold findAddress
    rw [empty]
    exact Chosen.none (Spares.refl _ _ state)

theorem findAnyAddress_chosen (state : DhcpServer) :
    Chosen config around state (findAnyAddress config around state).1
      (findAnyAddress config around state).2 := by
  have first := findAddress_chosen config around false
    state
  unfold findAnyAddress
  dsimp only
  split
  · exact Chosen.behind first.toSpares (findAddress_chosen _ _ true _)
  · exact first

theorem requestedInRange_ranged (oldpacket : DhcpMessage)
    (address : BitVec 32)
    (asked : requestedInRange config oldpacket = some address) :
    InRange config address := by
  unfold requestedInRange at asked
  cases found : getOption oldpacket.rest DHCP_REQUESTED_IP with
  | none => simp [found] at asked
  | some place =>
      simp only [found, Option.bind_eq_bind, Option.bind_some, guard] at asked
      split_ifs at asked with inside
      · cases asked
        exact inside
      · cases asked

variable (config around)

structure ChosenFor (client : Fin 16 → Byte) (state : DhcpServer)
    (address : BitVec 32) (after : DhcpServer) : Prop
    extends Spares config around state after where
  ranged : LeasesOk config state.leases →
    address = 0 ∨ InRange config address
  free : ∀ chaddr yiaddr bound, chaddr ≠ blankChaddr → yiaddr ≠ 0 →
    client ≠ chaddr → LeasesOk config state.leases →
    Early around bound state after →
    Held config chaddr yiaddr bound state.leases → address ≠ yiaddr

variable {config around}

theorem Chosen.for_ {address : BitVec 32}
    (chosen : Chosen config around state address after)
    (client : Fin 16 → Byte) :
    ChosenFor config around client state address after :=
  ⟨chosen.toSpares, chosen.ranged,
    fun chaddr yiaddr bound some_ address _ ok early held =>
      chosen.free chaddr yiaddr bound some_ address ok early held⟩

theorem own_chosen (spares : Spares config around state after)
    (client : Fin 16 → Byte) (place : Nat)
    (known : findLeaseByChaddr config state.leases client = some place) :
    ChosenFor config around client state (state.leases place).yiaddr after := by
  have isPlace := findLeaseByChaddr_some place known
  constructor
  · exact spares
  · intro ok
    exact ok.ranged place isPlace.1
  · intro chaddr yiaddr bound _ some_ other ok _ held same
    obtain ⟨i, isI, gives⟩ := held
    have differ : i ≠ place := by
      intro here
      rw [here] at gives
      exact other (isPlace.2.symm.trans gives.1)
    apply some_
    rw [← gives.2.1]
    exact ok.yiaddrs i place isI isPlace.1 differ (gives.2.1.trans same.symm)

variable (config around) in
theorem chooseAddress_chosen (oldpacket : DhcpMessage) (state : DhcpServer) :
    ChosenFor config around oldpacket.chaddr state
      (chooseAddress config around oldpacket state).1
      (chooseAddress config around oldpacket state).2.2 := by
  cases known : findLeaseByChaddr config state.leases oldpacket.chaddr with
  | some place =>
      have own : (chooseAddress config around oldpacket state).1 =
          (state.leases place).yiaddr := by
        unfold chooseAddress
        simp only [known]
        split <;> rfl
      rw [own]
      apply own_chosen _ oldpacket.chaddr place known
      unfold chooseAddress
      simp only [known]
      split
      · exact Spares.of_leases (Nat.le_succ _) rfl rfl
      · exact Spares.of_leases (Nat.le_add_right _ 2) rfl rfl
  | none =>
      apply Chosen.for_
      unfold chooseAddress
      simp only [known]
      cases asked : requestedInRange config oldpacket with
      | none => exact findAnyAddress_chosen state
      | some address =>
          have ranged := requestedInRange_ranged oldpacket address asked
          dsimp only
          split
          · next free => exact addressFree_chosen true address state ranged free
          · exact Chosen.behind (addressFree_spares true address state)
              (findAnyAddress_chosen _)

end XR872.Network
