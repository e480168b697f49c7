/-
The data phase of a transfer without a key, and the round trip.

Packets arrive in any order and any number of times. Until the last one has
arrived the buffer holds those that have; with it the message is decoded, and
what follows changes nothing in the result.
-/

import XR872.SmartConfig.Decoding

namespace XR872.SmartConfig

open BitView
open Buffers
open Bitmaps
open Traces
open Runs

/-! ### Packets -/

section Packet

variable (message : Message) (next : Fin message.total)

theorem packet_number : (message.packet next).packetNum = next + 5 := by
  have total := message.total_le
  have below := next.isLt
  change (BitVec.ofNat 8 (next + 5)).toNat = next + 5
  rw [BitVec.toNat_ofNat]
  omega

theorem packet_index : packetIndex (message.packet next).packetNum = next := by
  have total := message.total_le
  have below := next.isLt
  rw [packet_number]
  unfold packetIndex
  omega

theorem packet_pushes (lead : LeadCode) (complete : lead.leadCompleteFlag = true) :
    pushes (message.packet next) lead := by
  have total := message.total_le
  have below := next.isLt
  refine ⟨rfl, ?_, complete⟩
  rw [packet_number]
  right
  omega

theorem packet_small : (next : Nat) < 64 := by
  have total := message.total_le
  have below := next.isLt
  omega

/-- `priv` after the packet is pushed. -/
def Message.pushed (priv : Priv) : Priv :=
  pushedPriv priv next (message.packet next).data

def Message.pushEvents (lead : LeadCode) : List Event :=
  countEvents lead next ++ [.store .srcData (2 * next : Nat) 2]

/-- The call of a packet: the push, and the decision where the count is full. -/
theorem packet_call (engine : CryptoEngine) (priv : Priv)
    (complete : priv.leadCode.leadCompleteFlag = true) :
    let after := message.pushed next priv
    let events := message.pushEvents next priv.leadCode
    scDecPacketDecode engine (message.packet next) priv =
      if after.leadCode.packetCount = priv.leadCode.packetTotal then
        { decideDecode engine priv.status after with
          events := events ++ (decideDecode engine priv.status after).events }
      else { value := some priv.status, state := after, events } := by
  intro after events
  rw [scDecPacketDecode_push engine _ priv (packet_pushes message next _ complete)]
  dsimp only
  rw [packet_index, if_neg (not_not_intro (packet_small message next))]
  rfl

theorem pushedSrc_packet (buffer : Buffer Byte srcDataSize) :
    let cells := (pushedSrc buffer next (message.packet next).data).cells
    cells[2 * (next : Nat)]? = message.body[2 * (next : Nat)]? ∧
      cells[2 * (next : Nat) + 1]? = message.body[2 * (next : Nat) + 1]? ∧
      ∀ index, index < 2 * (next : Nat) ∨ 2 * (next : Nat) + 2 ≤ index →
        cells[index]? = buffer.cells[index]? := by
  have small := packet_small message next
  have below := next.isLt
  have length := message.length_body
  have within : 2 * (next : Nat) + (message.packet next).data.length ≤
      srcDataSize := by
    change 2 * (next : Nat) + 2 ≤ 128
    omega
  have first : 2 * (next : Nat) < message.body.length := by omega
  have second : 2 * (next : Nat) + 1 < message.body.length := by omega
  have at_ : ∀ index < message.body.length,
      some (message.body.getD index 0) = message.body[index]? := by
    intro index inside
    rw [List.getD_eq_getElem?_getD, List.getElem?_eq_getElem inside]
    rfl
  unfold pushedSrc
  rw [dif_pos within]
  refine ⟨?_, ?_, ?_⟩
  · refine (Buffer.getElem?_store_inside buffer _ _ within 0
      (show 0 < 2 by decide)).trans ?_
    exact at_ _ first
  · refine (Buffer.getElem?_store_inside buffer _ _ within 1
      (show 1 < 2 by decide)).trans ?_
    exact at_ _ second
  · intro index outside
    exact Buffer.getElem?_store_outside buffer _ _ within index outside

end Packet

/-! ### Receiving -/

structure Receiving (message : Message) (session : Session)
    (indexes : List (Fin message.total)) : Prop where
  running : session.stopped = false
  unkeyed : session.priv.keyed = false
  early : session.priv.status.code < ScStatus.complete.code
  lead : LeadOf message session.priv.leadCode
  counted : countedSession session
  whole : wholeSession session
  arrived : ∀ index : Nat, index ∈ received session.log ↔
    ∃ sent ∈ indexes, sent.val = index
  src : ∀ sent ∈ indexes,
    session.priv.srcDataBuff.cells[2 * (sent : Nat)]? =
        message.body[2 * (sent : Nat)]? ∧
      session.priv.srcDataBuff.cells[2 * (sent : Nat) + 1]? =
        message.body[2 * (sent : Nat) + 1]?

theorem LeadKnown.leadOf {message : Message} {lead : LeadCode}
    (known : LeadKnown message lead) (complete : lead.leadCompleteFlag = true) :
    LeadOf message lead := by
  have ready := known.complete complete
  unfold LeadCode.ready at ready
  have parts := not_or.mp ready
  have rest := not_or.mp parts.2
  obtain ⟨len, total⟩ := known.len.resolve_left fun none => parts.1 none.1
  exact
    { len := len
      pwdLen := known.pwd.resolve_left rest.1
      total := total
      random := known.random.resolve_left rest.2
      complete := complete }

theorem Leading.receiving {message : Message} {session : Session}
    (leading : Leading message session)
    (complete : session.priv.leadCode.leadCompleteFlag = true) :
    Receiving message session [] := by
  have lead := leading.lead.leadOf complete
  have total := message.total_le
  obtain ⟨none, decoded⟩ := leading.log
  exact
    { running := leading.running
      unkeyed := leading.unkeyed
      early := leading.early
      lead := lead
      counted :=
        { marks := by
            intro index _
            rw [leading.lead.bitmap, marked_fill, none]
            simp
          count := by
            rw [leading.lead.count, leading.lead.bitmap, markedSet_fill]
            rfl
          total := by
            rw [lead.total]
            omega
          gap := by
            rw [none]
            exact Finset.notMem_empty _
          open_ := fun _ => none }
      whole :=
        { decoded := decoded
          counted := by
            rw [leading.lead.count, none]
            rfl }
      arrived := by
        intro index
        rw [none]
        simp
      src := by
        intro sent member
        cases member }

section Receiving

variable {message : Message} {session : Session}
  {indexes : List (Fin message.total)}
  (receiving : Receiving message session indexes) (next : Fin message.total)

theorem LeadOf.pushed {lead : LeadCode} (known : LeadOf message lead)
    (index : Nat) : LeadOf message (countedLead lead index) := by
  unfold countedLead
  split
  · exact known
  · split
    · exact known
    · exact
        { len := known.len
          pwdLen := known.pwdLen
          total := known.total
          random := known.random
          complete := known.complete }

include receiving in
theorem Receiving.pushed_counted :
    Counted (message.pushed next session.priv).leadCode
        (pushedLog session.log session.priv.leadCode next) ∧
      Whole (message.pushed next session.priv).leadCode
        (pushedLog session.log session.priv.leadCode next) := by
  have total := message.total_le
  have below := next.isLt
  have range : (next : Nat) < 123 ∨ (next : Nat) = 251 := by omega
  constructor
  · exact receiving.counted.push receiving.lead.complete range
  · apply receiving.whole.push receiving.counted range
    right
    rw [receiving.lead.total]
    exact below

include receiving in
theorem Receiving.pushed_arrived (index : Nat) :
    index ∈ received (pushedLog session.log session.priv.leadCode next) ↔
      ∃ sent ∈ indexes ++ [next], sent.val = index := by
  rw [received_pushed, Finset.mem_insert, receiving.arrived]
  constructor
  · intro either
    rcases either with new | old
    · exact ⟨next, by simp, new.symm⟩
    · obtain ⟨sent, member, same⟩ := old
      exact ⟨sent, List.mem_append_left _ member, same⟩
  · intro some
    obtain ⟨sent, member, same⟩ := some
    rcases List.mem_append.mp member with old | new
    · exact Or.inr ⟨sent, old, same⟩
    · left
      rw [← same, List.mem_singleton.mp new]

include receiving in
theorem Receiving.pushed_src :
    ∀ sent ∈ indexes ++ [next],
      (message.pushed next session.priv).srcDataBuff.cells[2 * (sent : Nat)]? =
          message.body[2 * (sent : Nat)]? ∧
        (message.pushed next session.priv).srcDataBuff.cells[
          2 * (sent : Nat) + 1]? = message.body[2 * (sent : Nat) + 1]? := by
  obtain ⟨first, second, others⟩ := pushedSrc_packet message next
    session.priv.srcDataBuff
  intro sent member
  by_cases same : sent = next
  · subst same
    exact ⟨first, second⟩
  · have differs : (sent : Nat) ≠ next := fun equal => same (Fin.ext equal)
    have old : sent ∈ indexes := by
      rcases List.mem_append.mp member with earlier | new
      · exact earlier
      · exact absurd (List.mem_singleton.mp new) same
    obtain ⟨even, odd⟩ := receiving.src sent old
    exact ⟨(others _ (by omega)).trans even, (others _ (by omega)).trans odd⟩

include receiving in
theorem Receiving.full_iff :
    (message.pushed next session.priv).leadCode.packetCount =
        session.priv.leadCode.packetTotal ↔
      ∀ index, index ∈ indexes ++ [next] := by
  have whole := (receiving.pushed_counted next).2
  have total : (message.pushed next session.priv).leadCode.packetTotal =
      message.total :=
    (countedLead_total _ _).trans receiving.lead.total
  rw [receiving.lead.total]
  constructor
  · intro full index
    have all := whole.all_received (total.trans full.symm) index
      (by rw [total]; exact index.isLt)
    obtain ⟨sent, member, same⟩ :=
      (receiving.pushed_arrived next index).mp all
    rw [← Fin.ext same]
    exact member
  · intro all
    have every : (received (pushedLog session.log session.priv.leadCode
        next)).filter (fun index => index < message.total) =
          Finset.range message.total := by
      apply Finset.ext
      intro index
      rw [Finset.mem_filter, Finset.mem_range]
      apply and_iff_right_of_imp
      intro below
      exact (receiving.pushed_arrived next index).mpr ⟨⟨index, below⟩,
        all _, rfl⟩
    rw [whole.counted, total, every, Finset.card_range]

include receiving in
theorem Receiving.turn_missing (engine : CryptoEngine)
    (missing : ¬ ∀ index, index ∈ indexes ++ [next]) :
    (scDecPacketDecode engine (message.packet next) session.priv).value =
        some session.priv.status ∧
      Receiving message (recvTurn engine session (message.packet next))
        (indexes ++ [next]) := by
  have notFull := (not_congr (receiving.full_iff next)).mpr missing
  have call := packet_call message next engine session.priv
    receiving.lead.complete
  dsimp only at call
  rw [if_neg notFull] at call
  refine ⟨by rw [call], ?_⟩
  obtain ⟨tail, quiet, after⟩ := recvTurn_returned engine session
    (message.packet next) receiving.running (Nat.le_refl _) _ _ _ call
  obtain ⟨lead, key, _, src⟩ := reportedPriv_fields session.priv.status
    (message.pushed next session.priv)
  obtain ⟨counted, whole⟩ := receiving.pushed_counted next
  have log : session.log ++ message.pushEvents next session.priv.leadCode =
      pushedLog session.log session.priv.leadCode next := rfl
  have same : received (pushedLog session.log session.priv.leadCode next ++
      tail) = received (pushedLog session.log session.priv.leadCode next) :=
    received_quiet _ _ quiet
  rw [after, log]
  exact
    { running := rfl
      unkeyed := by
        unfold Priv.keyed
        rw [key]
        exact receiving.unkeyed
      early := reportedPriv_early _ _ receiving.early receiving.early
      lead := by
        rw [lead]
        exact receiving.lead.pushed next
      counted := by
        unfold countedSession
        rw [lead]
        exact counted.same_received same
      whole := by
        unfold wholeSession
        rw [lead]
        exact
          { decoded := (decodesWhole_append _ _
              (quiet_not_decode tail quiet)).mpr whole.decoded
            counted := by
              rw [same]
              exact whole.counted }
      arrived := by
        rw [same]
        exact receiving.pushed_arrived next
      src := by
        rw [src]
        exact receiving.pushed_src next }

/-! ### The last packet -/

structure Finished (message : Message) (session : Session) : Prop where
  running : session.stopped = false
  status : session.priv.status = .complete
  complete : session.priv.leadCode.leadCompleteFlag = true
  delivered : Delivered message session.priv

include receiving in
theorem Receiving.pushed_body (all : ∀ index, index ∈ indexes ++ [next]) :
    ∀ index < 2 * message.total,
      (message.pushed next session.priv).srcDataBuff.cells[index]? =
        message.body[index]? := by
  intro index below
  have sent : index / 2 < message.total := by omega
  obtain ⟨even, odd⟩ := receiving.pushed_src next ⟨index / 2, sent⟩ (all _)
  rcases Nat.mod_two_eq_zero_or_one index with zero | one
  · have place : 2 * (index / 2) = index := by omega
    rw [place] at even
    exact even
  · have place : 2 * (index / 2) + 1 = index := by omega
    rw [place] at odd
    exact odd

include receiving in
theorem Receiving.turn_last (engine : CryptoEngine)
    (all : ∀ index, index ∈ indexes ++ [next]) :
    let report := (scDecPacketDecode engine (message.packet next)
      session.priv).value
    let after := recvTurn engine session (message.packet next)
    (¬ message.clipped → report = some .complete ∧ Finished message after) ∧
      (message.clipped → ¬ Delivered message after.priv) := by
  have full := (receiving.full_iff next).mpr all
  have known : LeadOf message (message.pushed next session.priv).leadCode :=
    receiving.lead.pushed next
  have due : (message.pushed next session.priv).due :=
    ⟨receiving.early, (countedLead_total _ _).trans full.symm⟩
  have unkeyed : (message.pushed next session.priv).keyed = false :=
    receiving.unkeyed
  obtain ⟨right, value, unclipped, clipped⟩ := decodeFields_message known
    (receiving.pushed_body next all) engine
  have quiet := quiet_decodeFields engine
    (message.pushed next session.priv).leadCode false
  have settled := quiet.settled (message.pushed next session.priv)
  cases run : decodeFields engine (message.pushed next session.priv).leadCode
      false (message.pushed next session.priv) with
  | mk answer decoded events =>
      rw [run] at value unclipped clipped settled
      dsimp only at value unclipped clipped settled
      subst value
      rw [← unkeyed] at run
      have call := packet_call message next engine session.priv
        receiving.lead.complete
      dsimp only at call
      rw [if_pos full, decideDecode_due engine session.priv.status
        (message.pushed next session.priv) decoded due _ events run] at call
      have status : decoded.status = session.priv.status :=
        congrArg (fun parts => parts.2.1) settled
      have lead : decoded.leadCode =
          (message.pushed next session.priv).leadCode := congrArg Prod.fst settled
      dsimp only
      constructor
      · intro whole
        obtain ⟨success, delivered⟩ := unclipped whole
        subst success
        obtain ⟨tail, _, after⟩ := recvTurn_returned engine session
          (message.packet next) receiving.running (Nat.le_refl _) .complete
          decoded _ call
        obtain ⟨leadSame, _, result, _⟩ := reportedPriv_fields .complete decoded
        refine ⟨by rw [call]; rfl, ?_⟩
        rw [after]
        exact
          { running := rfl
            status := by
              unfold reportedPriv
              rw [if_pos ⟨rfl, by rw [status]; exact receiving.early⟩]
              rfl
            complete := by
              rw [leadSame, lead]
              exact known.complete
            delivered := delivered.of_result result }
      · intro clip
        have undelivered := clipped clip
        cases right with
        | true =>
            obtain ⟨tail, _, after⟩ := recvTurn_returned engine session
              (message.packet next) receiving.running (Nat.le_refl _) .complete
              decoded _ call
            obtain ⟨_, _, result, _⟩ := reportedPriv_fields .complete decoded
            rw [after]
            intro delivered
            exact undelivered (delivered.of_result result.symm)
        | false =>
            obtain ⟨tail, _, after⟩ := recvTurn_returned engine session
              (message.packet next) receiving.running (Nat.le_refl _) .end
              (failedPriv decoded) _ call
            obtain ⟨_, _, result, _⟩ := reportedPriv_fields .end
              (failedPriv decoded)
            rw [after]
            intro delivered
            exact undelivered (delivered.of_result result.symm)

end Receiving

/-- What arrives behind the last packet changes nothing in the result. -/
theorem Finished.turn {message : Message} {session : Session}
    (finished : Finished message session) (engine : CryptoEngine)
    (next : Fin message.total) :
    (scDecPacketDecode engine (message.packet next) session.priv).value =
        some .complete ∧
      Finished message (recvTurn engine session (message.packet next)) := by
  have idle : ¬ (message.pushed next session.priv).due := by
    intro due
    have early := due.1
    change session.priv.status.code < _ at early
    rw [finished.status] at early
    exact Nat.lt_irrefl _ early
  have call := packet_call message next engine session.priv finished.complete
  dsimp only at call
  rw [decideDecode_idle engine _ _ idle, List.append_nil, ite_self,
    finished.status] at call
  refine ⟨by rw [call], ?_⟩
  obtain ⟨tail, _, after⟩ := recvTurn_returned engine session
    (message.packet next) finished.running (Nat.le_refl _) .complete
    (message.pushed next session.priv) _ call
  obtain ⟨lead, _, result, _⟩ := reportedPriv_fields .complete
    (message.pushed next session.priv)
  rw [after]
  exact
    { running := rfl
      status := by
        unfold reportedPriv
        split
        · rfl
        · split
          · rfl
          · exact finished.status
      complete := by
        rw [lead]
        exact (countedLead_flag _ _).trans finished.complete
      delivered := finished.delivered.of_result result }

/-! ### Transfers -/

/-- The session after lead frames and packets. -/
def sentSession (engine : CryptoEngine) (message : Message)
    (parts : List LeadPart) (indexes : List (Fin message.total)) : Session :=
  run (recvTurn engine) (ledSession engine message parts)
    (indexes.map message.packet)

theorem sentSession_concat (engine : CryptoEngine) (message : Message)
    (parts : List LeadPart) (indexes : List (Fin message.total))
    (next : Fin message.total) :
    sentSession engine message parts (indexes ++ [next]) =
      recvTurn engine (sentSession engine message parts indexes)
        (message.packet next) := by
  unfold sentSession
  rw [List.map_append, List.map_singleton, run_concat]

section Transfer

variable (engine : CryptoEngine) (message : Message) (parts : List LeadPart)
  (complete : (ledSession engine message parts).priv.leadCode.leadCompleteFlag =
    true)

include complete in
theorem receiving_sentSession (indexes : List (Fin message.total))
    (missing : ¬ ∀ index, index ∈ indexes) :
    Receiving message (sentSession engine message parts indexes) indexes := by
  induction indexes using List.reverseRecOn with
  | nil => exact (leading_ledSession engine message parts).receiving complete
  | append_singleton before next ih =>
      have earlier : ¬ ∀ index, index ∈ before := by
        intro all
        exact missing fun index => List.mem_append_left _ (all index)
      rw [sentSession_concat]
      exact ((ih earlier).turn_missing next engine missing).2

include complete in
/-- A message that is not clipped is finished with its last packet. -/
theorem finished_sentSession (unclipped : ¬ message.clipped)
    (indexes : List (Fin message.total)) (all : ∀ index, index ∈ indexes) :
    Finished message (sentSession engine message parts indexes) := by
  induction indexes using List.reverseRecOn with
  | nil =>
      have first := all ⟨0, by
        unfold Message.total
        omega⟩
      cases first
  | append_singleton before next ih =>
      rw [sentSession_concat]
      by_cases earlier : ∀ index, index ∈ before
      · exact ((ih earlier).turn engine next).2
      · exact (((receiving_sentSession engine message parts complete before
          earlier).turn_last next engine all).1 unclipped).2

end Transfer

/-- After every lead phase that completes the lead and every list of packets,
the decoder reports completion for the next packet exactly if none is missing
then, and the result is the message. -/
def roundTrips (message : Message) : Prop :=
  ∀ (engine : CryptoEngine) (parts : List LeadPart),
    (ledSession engine message parts).priv.leadCode.leadCompleteFlag = true →
    ∀ (indexes : List (Fin message.total)) (next : Fin message.total),
      let before := sentSession engine message parts indexes
      let after := sentSession engine message parts (indexes ++ [next])
      ((scDecPacketDecode engine (message.packet next) before.priv).value =
          some .complete ↔ ∀ index, index ∈ indexes ++ [next]) ∧
        ((∀ index, index ∈ indexes ++ [next]) → Delivered message after.priv)

theorem roundTrips_of_unclipped (message : Message)
    (unclipped : ¬ message.clipped) : roundTrips message := by
  intro engine parts complete indexes next
  dsimp only
  rw [sentSession_concat]
  by_cases earlier : ∀ index, index ∈ indexes
  · have finished := finished_sentSession engine message parts complete
      unclipped indexes earlier
    obtain ⟨report, after⟩ := finished.turn engine next
    have all : ∀ index, index ∈ indexes ++ [next] := fun index =>
      List.mem_append_left _ (earlier index)
    exact ⟨iff_of_true report all, fun _ => after.delivered⟩
  · have receiving := receiving_sentSession engine message parts complete
      indexes earlier
    by_cases all : ∀ index, index ∈ indexes ++ [next]
    · obtain ⟨report, after⟩ :=
        (receiving.turn_last next engine all).1 unclipped
      exact ⟨iff_of_true report all, fun _ => after.delivered⟩
    · obtain ⟨report, _⟩ := receiving.turn_missing next engine all
      refine ⟨iff_of_false ?_ all, fun whole => absurd whole all⟩
      intro completed
      have early := receiving.early
      rw [report] at completed
      rw [Option.some.inj completed] at early
      exact Nat.lt_irrefl _ early

/-- The terminator of a full ssid field spoils the passphrase of every
transfer. -/
theorem not_roundTrips_of_clipped (message : Message)
    (clipped : message.clipped) : ¬ roundTrips message := by
  intro trips
  have positive : 0 < message.total := by
    unfold Message.total
    omega
  have complete := ledSession_complete noEngine message
  have missing : ¬ ∀ index, index ∈
      (List.finRange message.total).erase ⟨0, positive⟩ := by
    intro all
    exact List.Nodup.not_mem_erase (List.nodup_finRange _) (all ⟨0, positive⟩)
  have all : ∀ index, index ∈
      (List.finRange message.total).erase ⟨0, positive⟩ ++ [⟨0, positive⟩] := by
    intro index
    by_cases first : index = ⟨0, positive⟩
    · rw [first]
      exact List.mem_append_right _ List.mem_cons_self
    · exact List.mem_append_left _
        ((List.mem_erase_of_ne first).mpr (List.mem_finRange index))
  have receiving := receiving_sentSession noEngine message _ complete _ missing
  have delivered := (trips noEngine _ complete _ ⟨0, positive⟩).2 all
  rw [sentSession_concat] at delivered
  exact (receiving.turn_last ⟨0, positive⟩ noEngine all).2 clipped delivered

/-- A message makes the round trip exactly if it is not clipped. -/
theorem roundTrips_iff (message : Message) :
    roundTrips message ↔
      ¬ (message.ssid.length = 32 ∧ message.pwd.getD 0 0 ≠ 0) := by
  constructor
  · intro trips clipped
    exact not_roundTrips_of_clipped message clipped trips
  · exact roundTrips_of_unclipped message

/-- An ssid of 32 bytes, and a passphrase of eight. -/
def fullSsidMessage : Message :=
  { channel := 6
    ssid := List.replicate 32 0x41
    pwd := List.replicate 8 0x31
    random := 7
    pad := 0
    ssid_pos := by decide
    ssid_le := by decide
    pwd_le := by decide
    random_ne := by decide }

theorem fullSsid_lost : ¬ roundTrips fullSsidMessage :=
  not_roundTrips_of_clipped fullSsidMessage ⟨rfl, by decide⟩

end XR872.SmartConfig
