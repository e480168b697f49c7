/-
What one call of the decoder does.

A call ignores its frame, takes a lead code, or, with the lead complete, pushes
a packet and decides whether to decode. The decision is followed by events of
the decoding alone.
-/

import XR872.SmartConfig.Decode

namespace XR872.SmartConfig

open BitView
open Buffers
open Bitmaps
open Traces

/-! ### Pushes -/

def countedLead (lead : LeadCode) (index : Nat) : LeadCode :=
  if 127 < index then lead
  else if marked lead.countPkt index then lead
  else
    { lead with
      countPkt := mark lead.countPkt index
      packetCount := lead.packetCount + 1 }

def countEvents (lead : LeadCode) (index : Nat) : List Event :=
  if 127 < index then []
  else if marked lead.countPkt index then [.load .countPkt (index / 8 : Nat) 1]
  else [.load .countPkt (index / 8 : Nat) 1, .store .countPkt (index / 8 : Nat) 1]

def pushedSrc (buffer : Buffer Byte srcDataSize) (index : Nat)
    (data : List Byte) : Buffer Byte srcDataSize :=
  if within : 2 * index + data.length ≤ srcDataSize then
    buffer.store (2 * index) data within
  else buffer

def pushedPriv (priv : Priv) (index : Nat) (data : List Byte) : Priv :=
  { priv with
    leadCode := countedLead priv.leadCode index
    srcDataBuff := pushedSrc priv.srcDataBuff index data }

theorem storeSrc_apply (offset : Nat) (data : List Byte) (priv : Priv)
    (within : offset + data.length ≤ srcDataSize) :
    storeSrc offset data priv =
      { value := some ()
        state :=
          { priv with srcDataBuff := priv.srcDataBuff.store offset data within }
        events := [.store .srcData offset data.length] } := by
  unfold storeSrc
  rw [Traced.bind_apply, dif_pos within]
  rfl

theorem storeSrc_stopped (offset : Nat) (data : List Byte) (priv : Priv)
    (outside : ¬ offset + data.length ≤ srcDataSize) :
    storeSrc offset data priv =
      { value := none
        state := priv
        events := [.store .srcData offset data.length] } := by
  unfold storeSrc
  rw [Traced.bind_apply, dif_neg outside]
  rfl

theorem decPushData_apply (packetNum : Nat) (data : List Byte) (priv : Priv) :
    decPushData packetNum data priv =
      { value :=
          if 2 * packetIndex packetNum + data.length ≤ srcDataSize then
            some (((countedLead priv.leadCode
              (packetIndex packetNum)).packetCount : Int) -
                priv.leadCode.packetTotal)
          else none
        state := pushedPriv priv (packetIndex packetNum) data
        events := countEvents priv.leadCode (packetIndex packetNum) ++
          [.store .srcData (2 * packetIndex packetNum : Nat) data.length] } := by
  generalize same : packetIndex packetNum = index
  unfold decPushData decValidPacketCount pushedPriv countedLead countEvents
    pushedSrc
  rw [same]
  by_cases far : 127 < index
  · have outside : ¬ 2 * index + data.length ≤ srcDataSize := by
      unfold srcDataSize
      omega
    simp [Traced.bind_apply, far, outside, storeSrc_stopped]
  · by_cases old : marked priv.leadCode.countPkt index
    · by_cases within : 2 * index + data.length ≤ srcDataSize
      · simp [Traced.bind_apply, far, old, within, storeSrc_apply]
      · simp [Traced.bind_apply, far, old, within, storeSrc_stopped]
    · by_cases within : 2 * index + data.length ≤ srcDataSize
      · simp [Traced.bind_apply, far, old, within, storeSrc_apply, setLeadCode]
      · simp [Traced.bind_apply, far, old, within, storeSrc_stopped,
          setLeadCode]

/-! ### Decoding -/

def Event.quiet : Event → Prop
  | .store .srcData _ len => len ≠ 2
  | .decode _ | .reset => False
  | _ => True

def Priv.settled (priv : Priv) : LeadCode × ScStatus × Buffer Byte 16 :=
  (priv.leadCode, priv.status, priv.aesKey)

structure Quiet {α : Type} (computation : ScM α) : Prop where
  events : Traced.Emits Event.quiet computation
  settled : Traced.Preserves Priv.settled computation

section Quiet

variable {α β : Type}

theorem quiet_pure (value : α) : Quiet (pure value : ScM α) :=
  { events := Traced.emits_pure value
    settled := Traced.preserves_pure value }

theorem quiet_get : Quiet (Traced.get : ScM Priv) :=
  { events := Traced.emits_get
    settled := Traced.preserves_get }

theorem quiet_stop : Quiet (Traced.stop : ScM α) :=
  { events := Traced.emits_stop
    settled := Traced.preserves_stop }

theorem quiet_emit (event : Event) (quiet : event.quiet) :
    Quiet (Traced.emit event : ScM Unit) :=
  { events := Traced.emits_emit event quiet
    settled := Traced.preserves_emit event }

theorem quiet_update (change : Priv → Priv)
    (settled : ∀ priv, (change priv).settled = priv.settled) :
    Quiet (Traced.update change : ScM Unit) :=
  { events := Traced.emits_update change
    settled := settled }

theorem quiet_bind (first : ScM α) (next : α → ScM β) (early : Quiet first)
    (late : ∀ value, Quiet (next value)) : Quiet (first >>= next) :=
  { events := Traced.emits_bind first next early.events
      fun value => (late value).events
    settled := Traced.preserves_bind first next early.settled
      fun value => (late value).settled }

theorem quiet_ite (condition : Prop) [Decidable condition] (yes no : ScM α)
    (whenYes : Quiet yes) (whenNo : Quiet no) :
    Quiet (if condition then yes else no) := by
  split
  · exact whenYes
  · exact whenNo

end Quiet

theorem quiet_loadSrc (offset len : Nat) : Quiet (loadSrc offset len) := by
  apply quiet_bind _ _ (quiet_emit _ (by trivial))
  intro _
  apply quiet_bind _ _ quiet_get
  intro priv
  exact quiet_ite _ _ _ (quiet_pure _) quiet_stop

theorem quiet_storeSrc (offset : Nat) (data : List Byte)
    (short : data.length ≠ 2) : Quiet (storeSrc offset data) := by
  apply quiet_bind _ _ (quiet_emit _ (by exact short))
  intro _
  split
  · exact quiet_update _ fun _ => rfl
  · exact quiet_stop

theorem quiet_loadResult (field : Region) (len : Nat) :
    Quiet (loadResult field len) := by
  apply quiet_bind _ _ (quiet_emit _ (by trivial))
  intro _
  apply quiet_bind _ _ quiet_get
  intro priv
  exact quiet_ite _ _ _ (quiet_pure _) quiet_stop

theorem quiet_storeResult (field : Region) (offset : Nat) (data : List Byte)
    (elsewhere : field ≠ .srcData) : Quiet (storeResult field offset data) := by
  apply quiet_bind
  · apply quiet_emit
    cases field with
    | srcData => exact absurd rfl elsewhere
    | _ => trivial
  · intro _
    apply quiet_ite _ _ _ (quiet_pure _)
    split
    · exact quiet_update _ fun _ => rfl
    · exact quiet_stop

theorem quiet_setResultByte (offset : Nat) (value : Byte) :
    Quiet (setResultByte offset value) :=
  quiet_update _ fun _ => rfl

theorem quiet_terminate : Quiet terminate := by
  apply quiet_bind _ _ quiet_get
  intro _
  apply quiet_bind _ _ (quiet_storeResult _ _ _ (by decide))
  intro _
  apply quiet_bind _ _ quiet_get
  intro _
  exact quiet_storeResult _ _ _ (by decide)

theorem quiet_copyFields (ssidSize pwdSize : Byte) :
    Quiet (copyFields ssidSize pwdSize) := by
  apply quiet_bind _ _ (quiet_setResultByte _ _)
  intro _
  apply quiet_bind _ _ (quiet_setResultByte _ _)
  intro _
  apply quiet_bind _ _ quiet_get
  intro _
  apply quiet_bind _ _ (quiet_loadSrc _ _)
  intro _
  apply quiet_bind _ _ (quiet_storeResult _ _ _ (by decide))
  intro _
  apply quiet_bind _ _ quiet_get
  intro _
  apply quiet_bind _ _ (quiet_loadSrc _ _)
  intro _
  exact quiet_storeResult _ _ _ (by decide)

theorem quiet_decPlain (ssidSize pwdSize : Byte) :
    Quiet (decPlain ssidSize pwdSize) := by
  apply quiet_bind _ _ (quiet_copyFields _ _)
  intro _
  exact quiet_terminate

theorem quiet_checkPadding (region : Region) (temp : List Byte)
    (size dlen left done : Nat) :
    Quiet (checkPadding region temp size dlen left done) := by
  induction left generalizing done with
  | zero => exact quiet_pure true
  | succ left ih =>
      apply quiet_bind _ _ (quiet_emit _ (by trivial))
      intro _
      exact quiet_ite _ _ _ (quiet_ite _ _ _ (quiet_pure _) (ih _)) quiet_stop

theorem quiet_decryptField (engine : CryptoEngine) (locked : Bool)
    (region : Region) (offset size : Nat) (elsewhere : region ≠ .srcData) :
    Quiet (decryptField engine locked region offset size) := by
  apply quiet_ite _ _ _ _ (quiet_pure _)
  apply quiet_bind _ _ (quiet_loadSrc _ _)
  intro cipher
  apply quiet_bind
  · apply quiet_emit
    cases region with
    | srcData => exact absurd rfl elsewhere
    | _ => trivial
  · intro _
    split
    · apply quiet_bind _ _ (quiet_emit _ (by trivial))
      intro _
      apply quiet_bind _ _ (quiet_checkPadding _ _ _ _ _ _)
      intro padded
      apply quiet_ite _ _ _ _ (quiet_pure _)
      apply quiet_bind _ _ (quiet_emit _ (by trivial))
      intro _
      exact quiet_pure _
    · exact quiet_stop

theorem quiet_decField (engine : CryptoEngine) (locked : Bool)
    (temp field : Region) (lenOffset offset size : Nat)
    (tempElsewhere : temp ≠ .srcData) (fieldElsewhere : field ≠ .srcData) :
    Quiet (decField engine locked temp field lenOffset offset size) := by
  apply quiet_ite _ _ _ (quiet_pure _)
  apply quiet_bind _ _ (quiet_decryptField _ _ _ _ _ tempElsewhere)
  intro answer
  cases answer with
  | unavailable => exact quiet_pure _
  | wrongPadding => exact quiet_pure _
  | plain len text =>
      apply quiet_bind _ _ (quiet_setResultByte _ _)
      intro _
      apply quiet_bind _ _ (quiet_storeResult _ _ _ fieldElsewhere)
      intro _
      exact quiet_pure _

theorem quiet_decAes (engine : CryptoEngine) (ssidSize pwdSize : Byte) :
    Quiet (decAes engine ssidSize pwdSize) := by
  apply quiet_ite _ _ _ (quiet_pure _)
  apply quiet_bind _ _ (quiet_decField _ _ _ _ _ _ _ (by decide) (by decide))
  intro decoded
  apply quiet_ite _ _ _ _ (quiet_pure _)
  apply quiet_bind _ _ (quiet_decField _ _ _ _ _ _ _ (by decide) (by decide))
  intro decoded
  apply quiet_ite _ _ _ _ (quiet_pure _)
  apply quiet_bind _ _ quiet_terminate
  intro _
  exact quiet_pure _

theorem quiet_fieldCrc8 (field : Region) (lenOffset : Nat) :
    Quiet (fieldCrc8 field lenOffset) := by
  apply quiet_bind _ _ quiet_get
  intro priv
  apply quiet_bind _ _ (quiet_loadResult _ _)
  intro _
  exact quiet_pure _

theorem quiet_checkFields (lead : LeadCode) : Quiet (checkFields lead) := by
  have short : ([0] : List Byte).length ≠ 2 := by decide
  apply quiet_bind _ _ (quiet_loadSrc _ _)
  intro _
  apply quiet_bind _ _ (quiet_fieldCrc8 _ _)
  intro _
  apply quiet_ite
  · apply quiet_bind _ _ (quiet_storeSrc _ _ short)
    intro _
    exact quiet_pure _
  · apply quiet_bind _ _ (quiet_loadSrc _ _)
    intro _
    apply quiet_bind _ _ (quiet_fieldCrc8 _ _)
    intro _
    apply quiet_bind _ _ (quiet_storeSrc _ _ short)
    intro _
    exact quiet_pure _

theorem decDataDecode_apply (engine : CryptoEngine) (priv : Priv) :
    decDataDecode engine priv =
      { value := (decodeFields engine priv.leadCode priv.keyed priv).value
        state := (decodeFields engine priv.leadCode priv.keyed priv).state
        events := .decode priv.leadCode.packetTotal ::
          (decodeFields engine priv.leadCode priv.keyed priv).events } := by
  unfold decDataDecode
  rfl

theorem quiet_decFields (engine : CryptoEngine) (lead : LeadCode)
    (keyed : Bool) : Quiet (decFields engine lead keyed) := by
  apply quiet_ite _ _ _ (quiet_decAes _ _ _)
  apply quiet_bind _ _ (quiet_decPlain _ _)
  intro _
  exact quiet_pure _

theorem quiet_decodeFields (engine : CryptoEngine) (lead : LeadCode)
    (keyed : Bool) : Quiet (decodeFields engine lead keyed) := by
  apply quiet_bind _ _ (quiet_decFields _ _ _)
  intro decoded
  apply quiet_ite _ _ _ _ (quiet_pure _)
  apply quiet_bind _ _ (quiet_setResultByte _ _)
  intro _
  exact quiet_checkFields _

/-! ### The decision -/

def Priv.due (priv : Priv) : Prop :=
  priv.status.code < ScStatus.complete.code ∧
    priv.leadCode.packetTotal = priv.leadCode.packetCount

theorem decideDecode_idle (engine : CryptoEngine) (status : ScStatus)
    (priv : Priv) (idle : ¬ priv.due) :
    decideDecode engine status priv =
      { value := some status, state := priv, events := [] } := by
  unfold decideDecode
  rw [Traced.get_bind_apply, Traced.ite_apply]
  exact if_neg idle

def failedPriv (priv : Priv) : Priv :=
  { priv with
    leadCode := scResetLeadCode
    srcDataBuff := pushedSrc priv.srcDataBuff 0 [0] }

/-- The call after a decoding: `none` where an access left the memory. -/
def decided (entry : Event) (after : Priv) (events : List Event) :
    Option Bool → Outcome Priv Event ScStatus
  | none => { value := none, state := after, events := entry :: events }
  | some true =>
      { value := some .complete, state := after, events := entry :: events }
  | some false =>
      { value := some .end, state := failedPriv after
        events := entry :: events ++ [.reset, .store .srcData 0 1] }

theorem decideDecode_due (engine : CryptoEngine) (status : ScStatus)
    (priv after : Priv) (due : priv.due) (value : Option Bool)
    (events : List Event)
    (run : decodeFields engine priv.leadCode priv.keyed priv =
      { value, state := after, events }) :
    decideDecode engine status priv =
      decided (.decode priv.leadCode.packetTotal) after events value := by
  have entered := decDataDecode_apply engine priv
  rw [run] at entered
  unfold decideDecode
  rw [Traced.get_bind_apply, Traced.ite_apply]
  refine (if_pos due).trans ?_
  cases value with
  | none => exact Traced.bind_stopped _ _ _ _ _ entered
  | some decoded =>
      rw [Traced.bind_returned _ _ _ _ _ _ entered]
      cases decoded with
      | true => exact congrArg (Outcome.mk _ _) (List.append_nil _)
      | false => rfl

/-! ### Calls -/

def Frame.magic (frame : Frame) : Prop := frame.addr3.cells.take 3 = scMagic

instance (frame : Frame) : Decidable frame.magic :=
  inferInstanceAs (Decidable (_ = _))

def Frame.data (frame : Frame) : List Byte :=
  [frame.addr3.cells.getD 4 0, frame.addr3.cells.getD 5 0]

def takesLead (frame : Frame) (lead : LeadCode) : Prop :=
  frame.magic ∧ (0 < frame.packetNum ∧ frame.packetNum < 5) ∧
    lead.leadCompleteFlag = false

def pushes (frame : Frame) (lead : LeadCode) : Prop :=
  frame.magic ∧ (frame.packetNum = 0 ∨
    (5 ≤ frame.packetNum ∧ frame.packetNum ≤ 127)) ∧
    lead.leadCompleteFlag = true

def reminds (frame : Frame) (lead : LeadCode) : Prop :=
  frame.magic ∧ 127 < frame.packetNum ∧ lead.leadCompleteFlag = true

def ledCode (frame : Frame) (priv : Priv) : LeadCode :=
  let answer :=
    decGetLeadCode frame priv.leadCode frame.packetNum priv.status
  if answer.1 = .complete then { answer.2.1 with leadCompleteFlag := true }
  else answer.2.1

theorem takeLeadCode_not_complete (lead : LeadCode) (packetNum : Nat)
    (data : Byte) (status : ScStatus) :
    (takeLeadCode lead packetNum data status).1 ≠ .complete := by
  unfold takeLeadCode
  split
  · exact LeadcodeSeq.noConfusion
  · exact LeadcodeSeq.noConfusion
  · exact LeadcodeSeq.noConfusion
  · exact LeadcodeSeq.noConfusion
  · exact LeadcodeSeq.noConfusion

theorem scDecPacketDecode_lead (engine : CryptoEngine) (frame : Frame)
    (priv : Priv) (lead : takesLead frame priv.leadCode) :
    scDecPacketDecode engine frame priv =
      { value := some
          (decGetLeadCode frame priv.leadCode frame.packetNum priv.status).2.2
        state := { priv with leadCode := ledCode frame priv }
        events := [] } := by
  obtain ⟨magic, number, open_⟩ := lead
  unfold Frame.magic at magic
  unfold scDecPacketDecode
  rw [Traced.get_bind_apply]
  simp only [magic, ne_eq, not_true_eq_false, if_false, if_pos number, open_]
  rfl

theorem scDecPacketDecode_remind (engine : CryptoEngine) (frame : Frame)
    (priv : Priv) (reminded : reminds frame priv.leadCode) :
    scDecPacketDecode engine frame priv =
      decideDecode engine priv.status priv := by
  obtain ⟨magic, number, complete⟩ := reminded
  have noLead : ¬ (0 < frame.packetNum ∧ frame.packetNum < 5) := by omega
  have noPacket : ¬ frame.packetNum ≤ 127 := by omega
  unfold Frame.magic at magic
  unfold scDecPacketDecode
  rw [Traced.get_bind_apply]
  simp only [magic, ne_eq, not_true_eq_false, if_false, if_neg noLead,
    if_neg noPacket, complete]

theorem scDecPacketDecode_ignored (engine : CryptoEngine) (frame : Frame)
    (priv : Priv) (noLead : ¬ takesLead frame priv.leadCode)
    (noPush : ¬ pushes frame priv.leadCode)
    (noReminder : ¬ reminds frame priv.leadCode) :
    scDecPacketDecode engine frame priv =
      { value := some priv.status, state := priv, events := [] } := by
  unfold takesLead at noLead
  unfold pushes at noPush
  unfold reminds at noReminder
  unfold scDecPacketDecode
  rw [Traced.get_bind_apply]
  by_cases magic : frame.magic
  · have same : frame.addr3.cells.take 3 = scMagic := magic
    by_cases number : 0 < frame.packetNum ∧ frame.packetNum < 5
    · cases complete : priv.leadCode.leadCompleteFlag with
      | true => simp [same, number]
      | false => exact absurd ⟨magic, number, complete⟩ noLead
    · cases complete : priv.leadCode.leadCompleteFlag with
      | false => simp [same, number]
      | true =>
          by_cases packet : frame.packetNum ≤ 127
          · exact absurd ⟨magic, by omega, complete⟩ noPush
          · exact absurd ⟨magic, by omega, complete⟩ noReminder
  · have other : ¬ frame.addr3.cells.take 3 = scMagic := magic
    simp [other]

theorem scDecPacketDecode_push (engine : CryptoEngine) (frame : Frame)
    (priv : Priv) (pushed : pushes frame priv.leadCode) :
    let index := packetIndex frame.packetNum
    let after := pushedPriv priv index frame.data
    let events := countEvents priv.leadCode index ++
      [.store .srcData (2 * index : Nat) 2]
    scDecPacketDecode engine frame priv =
      if ¬ index < 64 then { value := none, state := after, events }
      else if after.leadCode.packetCount = priv.leadCode.packetTotal then
        { decideDecode engine priv.status after with
          events := events ++ (decideDecode engine priv.status after).events }
      else { value := some priv.status, state := after, events } := by
  intro index after events
  obtain ⟨magic, number, complete⟩ := pushed
  have noLead : ¬ (0 < frame.packetNum ∧ frame.packetNum < 5) := by omega
  have packet : frame.packetNum ≤ 127 := by omega
  have same : frame.addr3.cells.take 3 = scMagic := magic
  have size : 2 * index + frame.data.length ≤ srcDataSize ↔ index < 64 := by
    change 2 * index + 2 ≤ 128 ↔ _
    omega
  unfold scDecPacketDecode
  rw [Traced.get_bind_apply]
  simp only [same, ne_eq, not_true_eq_false, if_false, if_neg noLead,
    if_pos packet, complete]
  have run := decPushData_apply frame.packetNum frame.data priv
  by_cases within : index < 64
  · rw [if_pos (size.mpr within)] at run
    have zero : ((countedLead priv.leadCode index).packetCount : Int) -
          priv.leadCode.packetTotal = 0 ↔
        after.leadCode.packetCount = priv.leadCode.packetTotal := by
      change _ ↔ (countedLead priv.leadCode index).packetCount = _
      omega
    refine (Traced.bind_returned _ _ _ _ _ _ run).trans ?_
    rw [if_neg (not_not_intro within)]
    by_cases full : after.leadCode.packetCount = priv.leadCode.packetTotal
    · rw [if_pos full, if_neg (not_not_intro (zero.mpr full))]
      rfl
    · rw [if_neg full, if_pos ((not_congr zero).mpr full)]
      exact congrArg (Outcome.mk _ _) (List.append_nil _)
  · rw [if_neg ((not_congr size).mpr within)] at run
    rw [if_pos within]
    exact Traced.bind_stopped _ _ _ _ _ run

end XR872.SmartConfig
