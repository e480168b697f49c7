/-
A sender's transfer without a key, and its lead phase.

The sender repeats four lead codes in any order; the receiver takes each of them
as it comes and completes the lead on a further one, once its callback has
recorded the channel.
-/

import XR872.SmartConfig.Count
import XR872.SmartConfig.Safety

namespace XR872.SmartConfig

open BitView
open Buffers
open Bitmaps
open Traces
open Runs

/-! ### The sender -/

/-- What is sent. The pad byte fills the last packet of an odd length. -/
structure Message where
  channel : Byte
  ssid : List Byte
  pwd : List Byte
  random : Byte
  pad : Byte
  ssid_pos : 1 ≤ ssid.length
  ssid_le : ssid.length ≤ 32
  pwd_le : pwd.length ≤ 63
  random_ne : random ≠ 0

namespace Message

variable (message : Message)

def len : Nat := message.ssid.length + message.pwd.length

def total : Nat := message.len / 2 + 1 + message.len % 2

def padding : List Byte := if message.len % 2 = 0 then [] else [message.pad]

def body : List Byte :=
  message.pwd ++ message.ssid ++ message.padding ++
    [calCrc8 message.pwd, calCrc8 message.ssid]

theorem length_body : message.body.length = 2 * message.total := by
  unfold body padding total len
  split
  · simp only [List.length_append, List.length_nil, List.length_cons]
    omega
  · simp only [List.length_append, List.length_nil, List.length_cons]
    omega

theorem total_le : message.total ≤ 49 := by
  have ssid := message.ssid_le
  have pwd := message.pwd_le
  unfold total len
  omega

/-- The packet with an index. -/
def packet (index : Fin message.total) : Frame :=
  dataFrame index (message.body.getD (2 * index) 0)
    (message.body.getD (2 * index + 1) 0)

end Message

inductive LeadPart
  | channel | ssidpwdLen | pwdLen | random
deriving DecidableEq, Repr

def Message.lead (message : Message) : LeadPart → Frame
  | .channel => leadFrame 1 message.channel
  | .ssidpwdLen => leadFrame 2 (BitVec.ofNat 8 message.len)
  | .pwdLen => leadFrame 3 (BitVec.ofNat 8 message.pwd.length)
  | .random => leadFrame 4 message.random

/-! ### The receive callback -/

/-- `priv` with a status the callback records. -/
def reportedPriv (status : ScStatus) (priv : Priv) : Priv :=
  if status = .complete ∧ priv.status.code < ScStatus.complete.code then
    priv.withStatus status
  else if status = .lockedChan ∧ priv.status ≠ status then
    priv.withStatus status
  else priv

theorem recvTurn_returned (engine : CryptoEngine) (session : Session)
    (frame : Frame) (running : session.stopped = false)
    (whole : ieee80211FrameSize ≤ frame.len) (status : ScStatus) (after : Priv)
    (events : List Event)
    (call : scDecPacketDecode engine frame session.priv =
      { value := some status, state := after, events }) :
    ∃ tail, (∀ event ∈ tail, event.quiet) ∧
      recvTurn engine session frame =
        { priv := reportedPriv status after
          log := session.log ++ events ++ tail
          stopped := false } := by
  have long : ¬ frame.len < ieee80211FrameSize := Nat.not_lt.mpr whole
  unfold recvTurn Session.perform smartconfigRecvRawframe reportedPriv
  rw [running, if_neg long, Traced.bind_returned _ _ _ _ _ _ call,
    Traced.get_bind_apply]
  by_cases complete : status = .complete ∧
      after.status.code < ScStatus.complete.code
  · refine ⟨[.newstatus .complete none], ?_, ?_⟩
    · intro event member
      rw [List.mem_singleton.mp member]
      trivial
    · rw [if_pos complete, if_pos complete, List.append_assoc]
      rfl
  · rw [if_neg complete, if_neg complete]
    by_cases locked : status = .lockedChan ∧ after.status ≠ status
    · refine ⟨[.newstatus .channelLocked (some frame.apMac)], ?_, ?_⟩
      · intro event member
        rw [List.mem_singleton.mp member]
        trivial
      · rw [if_pos locked, if_pos locked, List.append_assoc]
        rfl
    · refine ⟨[], ?_, ?_⟩
      · intro event member
        cases member
      · rw [if_neg locked, if_neg locked, List.append_assoc]
        rfl

/-! ### The lead phase -/

structure LeadKnown (message : Message) (lead : LeadCode) : Prop where
  len : (lead.ssidpwdLen = 0 ∧ lead.packetTotal = 0) ∨
    (lead.ssidpwdLen = message.len ∧ lead.packetTotal = message.total)
  pwd : lead.pwdLen = -1 ∨ lead.pwdLen = message.pwd.length
  random : lead.random = 0 ∨ lead.random = message.random
  complete : lead.leadCompleteFlag = true → lead.ready
  count : lead.packetCount = 0
  bitmap : lead.countPkt = Buffer.fill 16 0

structure Leading (message : Message) (session : Session) : Prop where
  running : session.stopped = false
  unkeyed : session.priv.keyed = false
  early : session.priv.status.code < ScStatus.complete.code
  lead : LeadKnown message session.priv.leadCode
  log : received session.log = ∅ ∧ DecodesWhole session.log

theorem leading_start (message : Message) :
    Leading message (wlanSmartConfigStart (Buffer.fill 16 0)) :=
  { running := rfl
    unkeyed := by decide
    early := by decide
    lead :=
      { len := Or.inl ⟨rfl, rfl⟩
        pwd := Or.inl rfl
        random := Or.inl rfl
        complete := fun impossible => by cases impossible
        count := rfl
        bitmap := rfl }
    log := by
      refine ⟨rfl, ?_⟩
      intro before total after impossible
      simp [wlanSmartConfigStart] at impossible }

def LeadPart.number : LeadPart → Nat
  | .channel => 1
  | .ssidpwdLen => 2
  | .pwdLen => 3
  | .random => 4

def Message.value (message : Message) : LeadPart → Byte
  | .channel => message.channel
  | .ssidpwdLen => BitVec.ofNat 8 message.len
  | .pwdLen => BitVec.ofNat 8 message.pwd.length
  | .random => message.random

theorem Message.lead_packetNum (message : Message) (part : LeadPart) :
    (message.lead part).packetNum = part.number := by
  cases part with
  | channel => rfl
  | ssidpwdLen => rfl
  | pwdLen => rfl
  | random => rfl

theorem Message.lead_magic (message : Message) (part : LeadPart) :
    (message.lead part).magic := by
  cases part with
  | channel => rfl
  | ssidpwdLen => rfl
  | pwdLen => rfl
  | random => rfl

theorem Message.lead_long (message : Message) (part : LeadPart) :
    ieee80211FrameSize ≤ (message.lead part).len := by
  cases part with
  | channel => exact Nat.le_refl _
  | ssidpwdLen => exact Nat.le_refl _
  | pwdLen => exact Nat.le_refl _
  | random => exact Nat.le_refl _

theorem Message.lead_data (message : Message) (part : LeadPart) :
    (message.lead part).addr3.cells.getD 4 0 = message.value part ∧
      (message.lead part).addr3.cells.getD 5 0 =
        calCrc8 [message.value part] := by
  cases part with
  | channel => exact ⟨rfl, rfl⟩
  | ssidpwdLen => exact ⟨rfl, rfl⟩
  | pwdLen => exact ⟨rfl, rfl⟩
  | random => exact ⟨rfl, rfl⟩

theorem LeadPart.number_range (part : LeadPart) :
    0 < part.number ∧ part.number < 5 := by
  cases part with
  | channel => decide
  | ssidpwdLen => decide
  | pwdLen => decide
  | random => decide

theorem LeadKnown.take {message : Message} {lead : LeadCode}
    (known : LeadKnown message lead) (incomplete : lead.leadCompleteFlag = false)
    (part : LeadPart) (status : ScStatus) :
    LeadKnown message
      (takeLeadCode lead part.number (message.value part) status).2.1 := by
  have ssid := message.ssid_le
  have pwd := message.pwd_le
  have open_ : ∀ next : LeadCode,
      next.leadCompleteFlag = lead.leadCompleteFlag →
      next.leadCompleteFlag = true → next.ready := by
    intro next same complete
    rw [same, incomplete] at complete
    contradiction
  have small : (BitVec.ofNat 8 message.len).toNat = message.len := by
    unfold Message.len
    rw [BitVec.toNat_ofNat]
    omega
  have smallPwd : (BitVec.ofNat 8 message.pwd.length).toNat =
      message.pwd.length := by
    rw [BitVec.toNat_ofNat]
    omega
  cases part with
  | channel => exact { known with complete := open_ _ rfl }
  | ssidpwdLen =>
      exact
        { known with
          len := by
            right
            refine ⟨small, ?_⟩
            change (BitVec.ofNat 8 message.len).toNat / 2 + 1 +
              (BitVec.ofNat 8 message.len).toNat % 2 = message.total
            rw [small]
            rfl
          complete := open_ _ rfl }
  | pwdLen =>
      exact
        { known with
          pwd := Or.inr (congrArg Int.ofNat smallPwd)
          complete := open_ _ rfl }
  | random =>
      exact
        { known with
          random := Or.inr rfl
          complete := open_ _ rfl }

theorem LeadKnown.led {message : Message} {priv : Priv}
    (known : LeadKnown message priv.leadCode)
    (incomplete : priv.leadCode.leadCompleteFlag = false) (part : LeadPart) :
    LeadKnown message (ledCode (message.lead part) priv) := by
  have data := (message.lead_data part).1
  have range := part.number_range
  unfold ledCode decGetLeadCode
  dsimp only
  rw [message.lead_packetNum part, data]
  rw [if_neg (show ¬ (part.number = 0 ∨ 4 < part.number) by omega)]
  by_cases ready : priv.status = .lockedChan ∧ priv.leadCode.ready
  · rw [if_pos ready]
    exact { known with complete := fun _ => ready.2 }
  · rw [if_neg ready]
    split
    · exact known
    · have next : LeadKnown message
          { priv.leadCode with lockedMacFlag := true } :=
        { known with complete := known.complete }
      rw [if_neg (takeLeadCode_not_complete _ _ _ _)]
      exact next.take incomplete part priv.status

theorem decGetLeadCode_status (frame : Frame) (lead : LeadCode)
    (packetNum : Nat) (status : ScStatus)
    (early : status.code < ScStatus.complete.code) :
    (decGetLeadCode frame lead packetNum status).2.2.code <
      ScStatus.complete.code := by
  unfold decGetLeadCode takeLeadCode
  dsimp only
  split
  · exact early
  · split
    · exact early
    · split
      · exact early
      · split
        · exact Nat.lt_succ_self 2
        · exact early
        · exact early
        · exact early
        · exact early

theorem reportedPriv_fields (status : ScStatus) (priv : Priv) :
    (reportedPriv status priv).leadCode = priv.leadCode ∧
      (reportedPriv status priv).aesKey = priv.aesKey ∧
      (reportedPriv status priv).result = priv.result ∧
      (reportedPriv status priv).srcDataBuff = priv.srcDataBuff := by
  unfold reportedPriv
  split
  · exact ⟨rfl, rfl, rfl, rfl⟩
  · split
    · exact ⟨rfl, rfl, rfl, rfl⟩
    · exact ⟨rfl, rfl, rfl, rfl⟩

theorem reportedPriv_early (status : ScStatus) (priv : Priv)
    (reported : status.code < ScStatus.complete.code)
    (early : priv.status.code < ScStatus.complete.code) :
    (reportedPriv status priv).status.code < ScStatus.complete.code := by
  unfold reportedPriv
  split
  · exact reported
  · split
    · exact reported
    · exact early

theorem reportedPriv_same (priv : Priv) (leadCode : LeadCode)
    (early : priv.status.code < ScStatus.complete.code) :
    (reportedPriv priv.status { priv with leadCode := leadCode }).status =
      priv.status := by
  have incomplete : priv.status ≠ .complete := by
    intro same
    rw [same] at early
    exact Nat.lt_irrefl _ early
  unfold reportedPriv
  rw [if_neg fun both => incomplete both.1, if_neg fun both => both.2 rfl]

theorem Leading.turn {message : Message} {session : Session}
    (leading : Leading message session) (engine : CryptoEngine)
    (part : LeadPart) :
    Leading message (recvTurn engine session (message.lead part)) := by
  have number := message.lead_packetNum part
  have range := part.number_range
  have magic := message.lead_magic part
  have long := message.lead_long part
  have same_log : ∀ tail : List Event, (∀ event ∈ tail, event.quiet) →
      received (session.log ++ [] ++ tail) = ∅ ∧
        DecodesWhole (session.log ++ [] ++ tail) := by
    intro tail quiet
    rw [List.append_nil, received_quiet _ _ quiet,
      decodesWhole_append _ _ (quiet_not_decode tail quiet)]
    exact leading.log
  cases flag : session.priv.leadCode.leadCompleteFlag with
  | false =>
      have taken : takesLead (message.lead part) session.priv.leadCode :=
        ⟨magic, number ▸ range, flag⟩
      have call := scDecPacketDecode_lead engine (message.lead part)
        session.priv taken
      obtain ⟨tail, quiet, after⟩ := recvTurn_returned engine session
        (message.lead part) leading.running long _ _ _ call
      obtain ⟨leadSame, key, _, _⟩ := reportedPriv_fields
        (decGetLeadCode (message.lead part) session.priv.leadCode
          (message.lead part).packetNum session.priv.status).2.2
        { session.priv with leadCode := ledCode (message.lead part) session.priv }
      rw [after]
      exact
        { running := rfl
          unkeyed := by
            unfold Priv.keyed
            rw [key]
            exact leading.unkeyed
          early := reportedPriv_early _ _
            (decGetLeadCode_status _ _ _ _ leading.early) leading.early
          lead := by
            rw [leadSame]
            exact leading.lead.led flag part
          log := same_log tail quiet }
  | true =>
      have noLead : ¬ takesLead (message.lead part) session.priv.leadCode := by
        intro taken
        exact Bool.noConfusion (flag.symm.trans taken.2.2)
      have noPush : ¬ pushes (message.lead part) session.priv.leadCode := by
        intro pushed
        have packet := pushed.2.1
        omega
      have noReminder : ¬ reminds (message.lead part) session.priv.leadCode := by
        intro reminded
        have packet := reminded.2.1
        omega
      have call := scDecPacketDecode_ignored engine (message.lead part)
        session.priv noLead noPush noReminder
      obtain ⟨tail, quiet, after⟩ := recvTurn_returned engine session
        (message.lead part) leading.running long _ _ _ call
      obtain ⟨leadSame, key, _, _⟩ := reportedPriv_fields session.priv.status
        session.priv
      rw [after]
      exact
        { running := rfl
          unkeyed := by
            unfold Priv.keyed
            rw [key]
            exact leading.unkeyed
          early := reportedPriv_early _ _ leading.early leading.early
          lead := by
            rw [leadSame]
            exact leading.lead
          log := same_log tail quiet }

def ledSession (engine : CryptoEngine) (message : Message)
    (parts : List LeadPart) : Session :=
  run (recvTurn engine) (wlanSmartConfigStart (Buffer.fill 16 0))
    (parts.map message.lead)

theorem leading_ledSession (engine : CryptoEngine) (message : Message)
    (parts : List LeadPart) :
    Leading message (ledSession engine message parts) := by
  unfold ledSession
  induction parts using List.reverseRecOn with
  | nil => exact leading_start message
  | append_singleton before part ih =>
      rw [List.map_append, List.map_singleton, run_concat]
      exact ih.turn engine part

theorem recvTurn_part (engine : CryptoEngine) (message : Message)
    (session : Session) (part : LeadPart) (running : session.stopped = false)
    (early : session.priv.status.code < ScStatus.complete.code)
    (incomplete : session.priv.leadCode.leadCompleteFlag = false)
    (unready : ¬ (session.priv.status = .lockedChan ∧
      session.priv.leadCode.ready)) :
    let next := recvTurn engine session (message.lead part)
    let taken := takeLeadCode
      { session.priv.leadCode with lockedMacFlag := true } part.number
      (message.value part) session.priv.status
    next.stopped = false ∧ next.priv.leadCode = taken.2.1 ∧
      next.priv.status = taken.2.2 := by
  have number := message.lead_packetNum part
  have range := part.number_range
  have leads : takesLead (message.lead part) session.priv.leadCode :=
    ⟨message.lead_magic part, number ▸ range, incomplete⟩
  have answer : decGetLeadCode (message.lead part) session.priv.leadCode
      (message.lead part).packetNum session.priv.status =
        takeLeadCode { session.priv.leadCode with lockedMacFlag := true }
          part.number (message.value part) session.priv.status := by
    unfold decGetLeadCode
    dsimp only
    rw [number, if_neg (show ¬ (part.number = 0 ∨ 4 < part.number) by omega),
      if_neg unready, (message.lead_data part).1, (message.lead_data part).2,
      if_neg (not_not_intro rfl)]
  have led : ledCode (message.lead part) session.priv =
      (takeLeadCode { session.priv.leadCode with lockedMacFlag := true }
        part.number (message.value part) session.priv.status).2.1 := by
    unfold ledCode
    dsimp only
    rw [answer, if_neg (takeLeadCode_not_complete _ _ _ _)]
  have call := scDecPacketDecode_lead engine (message.lead part) session.priv
    leads
  rw [answer, led] at call
  obtain ⟨tail, _, after⟩ := recvTurn_returned engine session
    (message.lead part) running (message.lead_long part) _ _ _ call
  dsimp only
  rw [after]
  refine ⟨rfl, (reportedPriv_fields _ _).1, ?_⟩
  cases part with
  | channel =>
      change (reportedPriv .lockedChan _).status = .lockedChan
      unfold reportedPriv
      rw [if_neg (fun impossible => ScStatus.noConfusion impossible.1)]
      split
      · rfl
      · rename_i same
        by_contra other
        exact same ⟨rfl, other⟩
  | ssidpwdLen => exact reportedPriv_same _ _ early
  | pwdLen => exact reportedPriv_same _ _ early
  | random => exact reportedPriv_same _ _ early

theorem recvTurn_completes (engine : CryptoEngine) (message : Message)
    (session : Session) (part : LeadPart) (running : session.stopped = false)
    (incomplete : session.priv.leadCode.leadCompleteFlag = false)
    (ready : session.priv.status = .lockedChan ∧ session.priv.leadCode.ready) :
    (recvTurn engine session
      (message.lead part)).priv.leadCode.leadCompleteFlag = true := by
  have number := message.lead_packetNum part
  have range := part.number_range
  have leads : takesLead (message.lead part) session.priv.leadCode :=
    ⟨message.lead_magic part, number ▸ range, incomplete⟩
  obtain ⟨tail, _, after⟩ := recvTurn_returned engine session
    (message.lead part) running (message.lead_long part) _ _ _
    (scDecPacketDecode_lead engine (message.lead part) session.priv leads)
  rw [after]
  refine (congrArg LeadCode.leadCompleteFlag (reportedPriv_fields _ _).1).trans ?_
  unfold ledCode decGetLeadCode
  dsimp only
  rw [number, if_neg (show ¬ (part.number = 0 ∨ 4 < part.number) by omega),
    if_pos ready, if_pos rfl]

/-- The lead is complete after the four parts, the channel first, and one
further frame. -/
theorem ledSession_complete (engine : CryptoEngine) (message : Message) :
    let session := ledSession engine message
      [.channel, .ssidpwdLen, .pwdLen, .random, .channel]
    session.priv.leadCode.leadCompleteFlag = true := by
  have ssid := message.ssid_pos
  have ssidLe := message.ssid_le
  have pwdLe := message.pwd_le
  unfold ledSession
  simp only [List.map_cons, List.map_nil, run_cons, run_nil]
  obtain ⟨running, lead, status⟩ := recvTurn_part engine message
    (wlanSmartConfigStart (Buffer.fill 16 0)) .channel rfl (by decide) rfl
    fun both => ScStatus.noConfusion both.1
  generalize recvTurn engine _ (message.lead .channel) = first at *
  have locked : first.priv.status = .lockedChan := status
  have flag : first.priv.leadCode.leadCompleteFlag = false :=
    congrArg LeadCode.leadCompleteFlag lead
  have len : first.priv.leadCode.ssidpwdLen = 0 :=
    congrArg LeadCode.ssidpwdLen lead
  have pwd : first.priv.leadCode.pwdLen = -1 := congrArg LeadCode.pwdLen lead
  have random : first.priv.leadCode.random = 0 := congrArg LeadCode.random lead
  clear lead status
  obtain ⟨running, lead, status⟩ := recvTurn_part engine message first
    .ssidpwdLen running (by rw [locked]; decide) flag
    fun both => both.2 (Or.inl len)
  generalize recvTurn engine first (message.lead .ssidpwdLen) = second at *
  replace locked : second.priv.status = .lockedChan := status.trans locked
  replace flag : second.priv.leadCode.leadCompleteFlag = false :=
    (congrArg LeadCode.leadCompleteFlag lead).trans flag
  replace len : second.priv.leadCode.ssidpwdLen =
      (BitVec.ofNat 8 message.len).toNat := congrArg LeadCode.ssidpwdLen lead
  replace pwd : second.priv.leadCode.pwdLen = -1 :=
    (congrArg LeadCode.pwdLen lead).trans pwd
  replace random : second.priv.leadCode.random = 0 :=
    (congrArg LeadCode.random lead).trans random
  clear lead status
  obtain ⟨running, lead, status⟩ := recvTurn_part engine message second .pwdLen
    running (by rw [locked]; decide) flag
    fun both => both.2 (Or.inr (Or.inl pwd))
  generalize recvTurn engine second (message.lead .pwdLen) = third at *
  replace locked : third.priv.status = .lockedChan := status.trans locked
  replace flag : third.priv.leadCode.leadCompleteFlag = false :=
    (congrArg LeadCode.leadCompleteFlag lead).trans flag
  replace len : third.priv.leadCode.ssidpwdLen =
      (BitVec.ofNat 8 message.len).toNat :=
    (congrArg LeadCode.ssidpwdLen lead).trans len
  replace pwd : third.priv.leadCode.pwdLen =
      (BitVec.ofNat 8 message.pwd.length).toNat := congrArg LeadCode.pwdLen lead
  replace random : third.priv.leadCode.random = 0 :=
    (congrArg LeadCode.random lead).trans random
  clear lead status
  obtain ⟨running, lead, status⟩ := recvTurn_part engine message third .random
    running (by rw [locked]; decide) flag
    fun both => both.2 (Or.inr (Or.inr random))
  generalize recvTurn engine third (message.lead .random) = fourth at *
  replace locked : fourth.priv.status = .lockedChan := status.trans locked
  replace flag : fourth.priv.leadCode.leadCompleteFlag = false :=
    (congrArg LeadCode.leadCompleteFlag lead).trans flag
  replace len : fourth.priv.leadCode.ssidpwdLen =
      (BitVec.ofNat 8 message.len).toNat :=
    (congrArg LeadCode.ssidpwdLen lead).trans len
  replace pwd : fourth.priv.leadCode.pwdLen =
      (BitVec.ofNat 8 message.pwd.length).toNat :=
    (congrArg LeadCode.pwdLen lead).trans pwd
  replace random : fourth.priv.leadCode.random = message.random :=
    congrArg LeadCode.random lead
  apply recvTurn_completes engine message fourth .channel running flag
  refine ⟨locked, ?_⟩
  intro missing
  rcases missing with none | none | none
  · rw [len, BitVec.toNat_ofNat] at none
    unfold Message.len at none
    omega
  · rw [pwd] at none
    omega
  · exact message.random_ne (random.symm.trans none)

end XR872.SmartConfig
