/-
When every access of a session stays inside its object.

Packets up to index 63 fit `src_data_buff`, and a count made of them leaves room
for both checksums. What remains are the sizes in the lead codes, which nothing
compares with the fields.
-/

import XR872.SmartConfig.Bounds
import XR872.SmartConfig.Count

namespace XR872.SmartConfig

open BitView
open Buffers
open Bitmaps
open Traces
open Runs

/-! ### Behind the terminators -/

theorem terminate_room (priv : Priv) (room : priv.room) :
    (terminate priv).state.room := by
  have pwdFits := room.1
  have ssidFits := room.2
  have kept : ∀ offset, 96 ≤ offset →
      (terminate priv).state.resultByte offset = priv.resultByte offset := by
    intro offset behind
    rw [terminate_apply priv room.1 (Nat.le_succ_of_le room.2)]
    unfold Priv.terminated
    rw [resultByte_withField, resultByte_withField]
    · right
      change 32 + _ + 1 ≤ offset
      omega
    · right
      change 0 + _ + 1 ≤ offset
      omega
  unfold Priv.room
  rw [kept _ (by decide), kept _ (by decide)]
  exact room

theorem decPlain_room (ssidSize pwdSize : Byte) (priv : Priv)
    (within : Traced.Within Event.inside (decPlain ssidSize pwdSize) priv)
    (returned : (decPlain ssidSize pwdSize priv).value = some ()) :
    (decPlain ssidSize pwdSize priv).state.room := by
  unfold decPlain at within returned ⊢
  obtain ⟨value, early, _, after⟩ := Traced.bind_inv _ _ _ _ returned
  rw [Traced.within_bind] at within
  rw [after]
  exact terminate_room _ ((within_terminate _).mp (within.2 value early))

theorem decAes_room (engine : CryptoEngine) (ssidSize pwdSize : Byte)
    (priv : Priv)
    (within : Traced.Within Event.inside (decAes engine ssidSize pwdSize) priv)
    (returned : (decAes engine ssidSize pwdSize priv).value = some true) :
    (decAes engine ssidSize pwdSize priv).state.room := by
  unfold decAes at within returned ⊢
  by_cases refused : 66 ≤ pwdSize.toNat ∨ 65 ≤ ssidSize.toNat
  · rw [if_pos refused] at returned
    cases returned
  · rw [if_neg refused] at within returned ⊢
    obtain ⟨pwdDone, pwdEarly, pwdLater, pwdAfter⟩ :=
      Traced.bind_inv _ _ _ _ returned
    have ssidWithin := ((Traced.within_bind _ _ _ _).mp within).2 _ pwdEarly
    rw [pwdAfter]
    cases pwdDone with
    | false => cases pwdLater
    | true =>
        rw [if_pos rfl] at pwdLater ssidWithin ⊢
        obtain ⟨ssidDone, ssidEarly, ssidLater, ssidAfter⟩ :=
          Traced.bind_inv _ _ _ _ pwdLater
        have ends := ((Traced.within_bind _ _ _ _).mp ssidWithin).2 _ ssidEarly
        rw [ssidAfter]
        cases ssidDone with
        | false => cases ssidLater
        | true =>
            rw [if_pos rfl] at ssidLater ends ⊢
            obtain ⟨_, _, _, after⟩ := Traced.bind_inv _ _ _ _ ssidLater
            rw [after]
            exact terminate_room _ ((within_terminate _).mp
              ((Traced.within_bind _ _ _ _).mp ends).1)

/-! ### Checksums -/

theorem fieldCrc8_apply (field : Region) (lenOffset : Nat) (priv : Priv)
    (within : fieldBase field + (priv.resultByte lenOffset).toNat ≤ resultSize) :
    fieldCrc8 field lenOffset priv =
      { value := some (calCrc8
          (priv.fieldBytes field (priv.resultByte lenOffset).toNat))
        state := priv
        events := [.load field 0 (priv.resultByte lenOffset).toNat] } := by
  unfold fieldCrc8
  rw [Traced.get_bind_apply, Traced.bind_returned _ _ _ _ _ _
    (loadResult_apply field _ priv (Or.inr within))]
  rfl

theorem within_zeroed {α : Type} (priv : Priv) (value : α) :
    Traced.Within Event.inside
      (do
        storeSrc 0 [0]
        pure value : ScM α) priv := by
  rw [Traced.within_bind, within_storeSrc]
  refine ⟨Or.inr (by decide), ?_⟩
  intro _ _
  exact Traced.within_pure _ _ _

theorem within_checkFields (lead : LeadCode) (priv : Priv) (room : priv.room)
    (place : lead.ssidpwdLen + lead.ssidpwdLen % 2 + 2 ≤ srcDataSize) :
    Traced.Within Event.inside (checkFields lead) priv := by
  have pwdFits := room.1
  have ssidFits := room.2
  have first : 1 = 0 ∨ lead.ssidpwdLen + lead.ssidpwdLen % 2 + 1 ≤
      srcDataSize := Or.inr (by omega)
  have second : 1 = 0 ∨ lead.ssidpwdLen + lead.ssidpwdLen % 2 + 1 + 1 ≤
      srcDataSize := Or.inr (by omega)
  have pwdInside : Event.inside
      (.load .pwd 0 (priv.resultByte pwdLenOffset).toNat) := by
    right
    change (0 : Int) ≤ 0 ∧ (0 : Int) + _ ≤ ((64 : Nat) : Int)
    omega
  have ssidInside : Event.inside
      (.load .ssid 0 (priv.resultByte ssidLenOffset).toNat) := by
    right
    change (0 : Int) ≤ 0 ∧ (0 : Int) + _ ≤ ((32 : Nat) : Int)
    omega
  unfold checkFields
  dsimp only
  rw [Traced.within_bind, within_loadSrc, loadSrc_apply _ _ _ first]
  refine ⟨first, ?_⟩
  intro _ _
  rw [Traced.within_bind_returned _ _ _ _ _ _ _
    (fieldCrc8_apply .pwd pwdLenOffset priv (by change 32 + _ ≤ 99; omega))]
  constructor
  · intro event member
    rw [List.mem_singleton.mp member]
    exact pwdInside
  · split
    · exact within_zeroed priv false
    · rw [Traced.within_bind, within_loadSrc, loadSrc_apply _ _ _ second]
      refine ⟨second, ?_⟩
      intro _ _
      rw [Traced.within_bind_returned _ _ _ _ _ _ _
        (fieldCrc8_apply .ssid ssidLenOffset priv (by change 0 + _ ≤ 99; omega))]
      constructor
      · intro event member
        rw [List.mem_singleton.mp member]
        exact ssidInside
      · exact within_zeroed priv _

/-! ### A decoding -/

structure Announced (lead : LeadCode) : Prop where
  ssidpwd : lead.ssidpwdLen ≤ 255
  pwd : -1 ≤ lead.pwdLen ∧ lead.pwdLen ≤ 255
  total : lead.ssidpwdLen ≠ 0 →
    lead.packetTotal = lead.ssidpwdLen / 2 + 1 + lead.ssidpwdLen % 2
  complete : lead.leadCompleteFlag = true →
    lead.ssidpwdLen ≠ 0 ∧ lead.pwdLen ≠ -1

/-- A lead whose packets fit `src_data_buff`. -/
structure Fitting (lead : LeadCode) : Prop where
  announced : Announced lead
  complete : lead.leadCompleteFlag = true
  packets : lead.packetTotal ≤ 64

theorem Fitting.place {lead : LeadCode} (fitting : Fitting lead) :
    lead.ssidpwdLen + lead.ssidpwdLen % 2 + 2 ≤ srcDataSize := by
  have known := fitting.announced.complete fitting.complete
  have total := fitting.announced.total known.1
  have packets := fitting.packets
  change _ ≤ 128
  omega

theorem Fitting.source {lead : LeadCode} (fitting : Fitting lead)
    (pwd : (srcPwdSize lead).toNat < 66) (ssid : (srcSsidSize lead).toNat < 65) :
    (srcPwdSize lead).toNat + (srcSsidSize lead).toNat ≤ srcDataSize := by
  have known := fitting.announced.complete fitting.complete
  have total := fitting.announced.total known.1
  have packets := fitting.packets
  have bounds := fitting.announced.pwd
  have differs := known.2
  unfold srcPwdSize srcSsidSize at *
  simp only [BitVec.toNat_ofInt] at *
  change _ ≤ 128
  omega

def decodingFits (engine : CryptoEngine) (priv : Priv) : Prop :=
  if priv.keyed = true then
    aesFits engine (srcSsidSize priv.leadCode) (srcPwdSize priv.leadCode) priv
  else plainFits (srcSsidSize priv.leadCode) (srcPwdSize priv.leadCode)

theorem within_decFields (engine : CryptoEngine) (priv : Priv)
    (fitting : Fitting priv.leadCode) :
    Traced.Within Event.inside (decFields engine priv.leadCode priv.keyed)
        priv ↔ decodingFits engine priv := by
  unfold decFields decodingFits
  split
  · exact within_decAes engine _ _ priv fitting.source
  · rw [Traced.within_bind, within_decPlain]
    apply and_iff_left
    intro _ _
    exact Traced.within_pure _ _ _

theorem decFields_room (engine : CryptoEngine) (priv : Priv)
    (within : Traced.Within Event.inside
      (decFields engine priv.leadCode priv.keyed) priv)
    (returned : (decFields engine priv.leadCode priv.keyed priv).value =
      some true) :
    (decFields engine priv.leadCode priv.keyed priv).state.room := by
  unfold decFields at within returned ⊢
  by_cases keyed : priv.keyed = true
  · rw [if_pos keyed] at within returned ⊢
    exact decAes_room engine _ _ priv within returned
  · rw [if_neg keyed] at within returned ⊢
    obtain ⟨_, early, _, after⟩ := Traced.bind_inv _ _ _ _ returned
    rw [after]
    exact decPlain_room _ _ priv ((Traced.within_bind _ _ _ _).mp within).1 early

theorem within_decodeFields (engine : CryptoEngine) (priv : Priv)
    (fitting : Fitting priv.leadCode) :
    Traced.Within Event.inside (decodeFields engine priv.leadCode priv.keyed)
        priv ↔ decodingFits engine priv := by
  unfold decodeFields
  rw [Traced.within_bind]
  refine Iff.trans (and_iff_left_of_imp ?_)
    (within_decFields engine priv fitting)
  intro within answer returned
  cases answer with
  | false => exact Traced.within_pure _ _ _
  | true =>
      have room := decFields_room engine priv within returned
      rw [if_pos rfl, Traced.within_bind_returned _ _ _ _ _ _ _
        (setResultByte_apply _ _ _)]
      constructor
      · intro event member
        cases member
      · apply within_checkFields _ _ _ fitting.place
        unfold Priv.room at room ⊢
        rw [resultByte_withByte_other _ _ _ _ (by decide),
          resultByte_withByte_other _ _ _ _ (by decide)]
        exact room

theorem within_decideDecode (engine : CryptoEngine) (status : ScStatus)
    (priv : Priv)
    (fitting : priv.due → Fitting priv.leadCode) :
    Traced.Within Event.inside (decideDecode engine status) priv ↔
      (priv.due → decodingFits engine priv) := by
  by_cases due : priv.due
  · rw [forall_prop_of_true due,
      ← within_decodeFields engine priv (fitting due)]
    have zeroed : Event.inside (.store .srcData 0 1) := by
      right
      decide
    cases run : decodeFields engine priv.leadCode priv.keyed priv with
    | mk value after events =>
        unfold Traced.Within
        rw [decideDecode_due engine status priv after due value events run, run]
        cases value with
        | none =>
            simp only [decided, List.mem_cons, forall_eq_or_imp]
            exact and_iff_right trivial
        | some decoded =>
            cases decoded with
            | true =>
                simp only [decided, List.mem_cons, forall_eq_or_imp]
                exact and_iff_right trivial
            | false =>
                constructor
                · intro all event member
                  exact all event (List.mem_append_left _
                    (List.mem_cons_of_mem _ member))
                · intro all event member
                  rcases List.mem_append.mp member with early | late
                  · rcases List.mem_cons.mp early with entry | later
                    · rw [entry]
                      trivial
                    · exact all event later
                  · rcases List.mem_cons.mp late with reset | store
                    · rw [reset]
                      trivial
                    · rw [List.mem_singleton.mp store]
                      exact zeroed
  · unfold Traced.Within
    rw [decideDecode_idle engine status priv due]
    apply iff_of_true
    · intro event member
      cases member
    · intro impossible
      exact absurd impossible due

/-! ### Lead codes -/

theorem announced_start : Announced scResetLeadCode :=
  { ssidpwd := by decide
    pwd := by decide
    total := fun differs => absurd rfl differs
    complete := fun impossible => by cases impossible }

theorem Announced.counted {lead : LeadCode} (announced : Announced lead)
    (index : Nat) : Announced (countedLead lead index) := by
  unfold countedLead
  split
  · exact announced
  · split
    · exact announced
    · exact
        { ssidpwd := announced.ssidpwd
          pwd := announced.pwd
          total := announced.total
          complete := announced.complete }

theorem Announced.take {lead : LeadCode} (announced : Announced lead)
    (incomplete : lead.leadCompleteFlag = false) (packetNum : Nat) (data : Byte)
    (status : ScStatus) :
    Announced (takeLeadCode lead packetNum data status).2.1 := by
  have byte := data.isLt
  have open_ : ∀ next : LeadCode,
      next.leadCompleteFlag = lead.leadCompleteFlag →
      next.leadCompleteFlag = true →
      next.ssidpwdLen ≠ 0 ∧ next.pwdLen ≠ -1 := by
    intro next same complete
    rw [same, incomplete] at complete
    contradiction
  unfold takeLeadCode
  split
  · exact { announced with complete := open_ _ rfl }
  · exact
      { announced with
        ssidpwd := Nat.le_of_lt_succ byte
        total := fun _ => rfl
        complete := open_ _ rfl }
  · exact
      { announced with
        pwd := by
          change (-1 : Int) ≤ (data.toNat : Int) ∧ (data.toNat : Int) ≤ 255
          omega
        complete := open_ _ rfl }
  · exact { announced with complete := open_ _ rfl }
  · exact announced

theorem Announced.led {frame : Frame} {priv : Priv}
    (announced : Announced priv.leadCode)
    (taken : takesLead frame priv.leadCode) :
    Announced (ledCode frame priv) := by
  have incomplete := taken.2.2
  unfold ledCode decGetLeadCode
  dsimp only
  by_cases other : frame.packetNum = 0 ∨ 4 < frame.packetNum
  · rw [if_pos other]
    exact announced
  · rw [if_neg other]
    by_cases ready : priv.status = .lockedChan ∧ priv.leadCode.ready
    · rw [if_pos ready]
      have parts := not_or.mp ready.2
      exact
        { announced with
          complete := fun _ => ⟨parts.1, (not_or.mp parts.2).1⟩ }
    · rw [if_neg ready]
      split
      · exact announced
      · have next : Announced { priv.leadCode with lockedMacFlag := true } :=
          { announced with complete := announced.complete }
        have data := next.take incomplete frame.packetNum
          (frame.addr3.cells.getD 4 0) priv.status
        have unfinished := takeLeadCode_not_complete
          { priv.leadCode with lockedMacFlag := true } frame.packetNum
          (frame.addr3.cells.getD 4 0) priv.status
        rw [if_neg unfinished]
        exact data

theorem Announced.call (priv : Priv) (announced : Announced priv.leadCode)
    (engine : CryptoEngine) (frame : Frame) :
    Announced (scDecPacketDecode engine frame priv).state.leadCode := by
  have decide_ : ∀ before : Priv, Announced before.leadCode →
      Announced (decideDecode engine priv.status before).state.leadCode := by
    intro before now
    rcases decideDecode_log engine priv.status before [] with idle | entered
    · rw [idle.2.1]
      exact now
    · obtain ⟨_, _, _, ended⟩ := entered
      rcases ended with kept | reset
      · rw [kept.1]
        exact now
      · rw [reset.1]
        exact announced_start
  rcases scDecPacketDecode_cases engine frame priv [] with
    ignored | lead | reminded | pushed
  · rw [ignored.1]
    exact announced
  · rw [lead.2.1]
    exact announced.led lead.1
  · rw [reminded.2.1]
    exact decide_ priv announced
  · have after := announced.counted (packetIndex frame.packetNum)
    rcases pushed.2 with early | decided
    · rw [early.1]
      exact after
    · rw [decided.1]
      exact decide_ _ after

/-! ### Packets -/

/-- The event stores no packet outside `src_data_buff`. -/
theorem remember_inside (seen : Finset Nat) (event : Event)
    (inside : event.inside) (small : ∀ index ∈ seen, index < 64) :
    ∀ index ∈ remember seen event, index < 64 := by
  cases event with
  | store region offset len =>
      cases region with
      | srcData =>
          change ∀ index ∈ (if len = 2 then insert (offset / 2).toNat seen
            else seen), index < 64
          by_cases packet : len = 2
          · rw [if_pos packet]
            intro index member
            rcases Finset.mem_insert.mp member with new | old
            · change len = 0 ∨ 0 ≤ offset ∧ offset + len ≤ ((128 : Nat) : Int)
                at inside
              omega
            · exact small index old
          · rw [if_neg packet]
            exact small
      | _ => exact small
  | reset =>
      intro index member
      cases member
  | _ => exact small

theorem received_inside (log : List Event)
    (inside : ∀ event ∈ log, event.inside) :
    ∀ index ∈ received log, index < 64 := by
  induction log using List.reverseRecOn with
  | nil =>
      intro index member
      cases member
  | append_singleton before event ih =>
      rw [received_append]
      apply remember_inside
      · exact inside event (List.mem_append_right _ List.mem_cons_self)
      · exact ih fun other member =>
          inside other (List.mem_append_left _ member)

theorem Counted.packets {lead : LeadCode} {log : List Event}
    (counted : Counted lead log) (small : ∀ index ∈ received log, index < 64) :
    lead.packetCount ≤ 64 := by
  rw [counted.count, counted.markedSet_eq, ← Finset.card_range 64]
  apply Finset.card_le_card
  intro index member
  exact Finset.mem_range.mpr (small index (Finset.mem_filter.mp member).1)

theorem countEvents_inside (lead : LeadCode) (index : Nat) :
    ∀ event ∈ countEvents lead index, event.inside := by
  intro event member
  unfold countEvents at member
  split at member
  · cases member
  · rename_i tracked
    have low : (0 : Int) ≤ (index / 8 : Nat) ∧
        ((index / 8 : Nat) : Int) + (1 : Nat) ≤ ((16 : Nat) : Int) := by omega
    split at member
    · rw [List.mem_singleton.mp member]
      exact Or.inr low
    · rcases List.mem_cons.mp member with first | later
      · rw [first]
        exact Or.inr low
      · rw [List.mem_singleton.mp later]
        exact Or.inr low

/-! ### A call -/

def boundedPush (engine : CryptoEngine) (frame : Frame) (priv : Priv) : Prop :=
  packetIndex frame.packetNum < 64 ∧
    let after := pushedPriv priv (packetIndex frame.packetNum) frame.data
    (after.due → decodingFits engine after)

def boundedFrame (engine : CryptoEngine) (frame : Frame) (priv : Priv) : Prop :=
  (pushes frame priv.leadCode → boundedPush engine frame priv) ∧
    (reminds frame priv.leadCode → priv.due → decodingFits engine priv)

theorem pushes_not_reminds (frame : Frame) (lead : LeadCode)
    (pushed : pushes frame lead) : ¬ reminds frame lead := by
  intro reminded
  have packet := pushed.2.1
  have beyond := reminded.2.1
  omega

theorem within_push (engine : CryptoEngine) (frame : Frame) (priv : Priv)
    (log : List Event) (counted : Counted priv.leadCode log)
    (announced : Announced priv.leadCode)
    (inside : ∀ event ∈ log, event.inside)
    (pushed : pushes frame priv.leadCode) :
    Traced.Within Event.inside (scDecPacketDecode engine frame) priv ↔
      boundedPush engine frame priv := by
  have store : Event.inside
      (.store .srcData (2 * packetIndex frame.packetNum : Nat) 2) ↔
        packetIndex frame.packetNum < 64 := by
    change 2 = 0 ∨ (0 : Int) ≤ (2 * packetIndex frame.packetNum : Nat) ∧
      ((2 * packetIndex frame.packetNum : Nat) : Int) + (2 : Nat) ≤
        ((128 : Nat) : Int) ↔ _
    omega
  have pushEvents : (∀ event ∈ countEvents priv.leadCode
        (packetIndex frame.packetNum) ++
          [.store .srcData (2 * packetIndex frame.packetNum : Nat) 2],
        event.inside) ↔ packetIndex frame.packetNum < 64 := by
    rw [← store]
    constructor
    · intro all
      exact all _ (List.mem_append_right _ List.mem_cons_self)
    · intro last event member
      rcases List.mem_append.mp member with early | late
      · exact countEvents_inside _ _ event early
      · rw [List.mem_singleton.mp late]
        exact last
  unfold Traced.Within boundedPush
  rw [scDecPacketDecode_push engine frame priv pushed]
  dsimp only
  by_cases small : packetIndex frame.packetNum < 64
  · rw [if_neg (not_not_intro small), and_iff_right small]
    by_cases full : (pushedPriv priv (packetIndex frame.packetNum)
        frame.data).leadCode.packetCount = priv.leadCode.packetTotal
    · rw [if_pos full]
      have after := counted.push pushed.2.2 (packetIndex_range frame _ pushed)
      have smallNow : ∀ index ∈ received (pushedLog log priv.leadCode
          (packetIndex frame.packetNum)), index < 64 := by
        rw [received_pushed]
        intro index member
        rcases Finset.mem_insert.mp member with new | old
        · rw [new]
          exact small
        · exact received_inside log inside index old
      have fitting : Fitting (pushedPriv priv (packetIndex frame.packetNum)
          frame.data).leadCode :=
        { announced := announced.counted _
          complete := (countedLead_flag _ _).trans pushed.2.2
          packets := by
            have count := after.packets smallNow
            have total := countedLead_total priv.leadCode
              (packetIndex frame.packetNum)
            change (countedLead _ _).packetCount = _ at full
            change (countedLead _ _).packetTotal ≤ 64
            omega }
      have decision := within_decideDecode engine priv.status
        (pushedPriv priv (packetIndex frame.packetNum) frame.data)
        fun _ => fitting
      rw [← decision]
      unfold Traced.Within
      constructor
      · intro all event member
        exact all event (List.mem_append_right _ member)
      · intro all event member
        rcases List.mem_append.mp member with early | late
        · exact pushEvents.mpr small event early
        · exact all event late
    · rw [if_neg full]
      apply iff_of_true
      · exact pushEvents.mpr small
      · intro due
        have total := countedLead_total priv.leadCode
          (packetIndex frame.packetNum)
        exact absurd (due.2.symm.trans total) full
  · rw [if_pos small]
    apply iff_of_false
    · intro all
      exact small (pushEvents.mp all)
    · intro both
      exact small both.1

theorem within_call_iff (engine : CryptoEngine) (frame : Frame) (priv : Priv)
    (log : List Event) (counted : Counted priv.leadCode log)
    (announced : Announced priv.leadCode)
    (inside : ∀ event ∈ log, event.inside) :
    Traced.Within Event.inside (scDecPacketDecode engine frame) priv ↔
      boundedFrame engine frame priv := by
  unfold boundedFrame
  by_cases pushed : pushes frame priv.leadCode
  · rw [within_push engine frame priv log counted announced inside pushed,
      forall_prop_of_true pushed]
    apply (and_iff_left _).symm
    intro reminded
    exact absurd reminded (pushes_not_reminds frame _ pushed)
  · rw [and_iff_right fun impossible => absurd impossible pushed]
    by_cases reminded : reminds frame priv.leadCode
    · rw [forall_prop_of_true reminded,
        ← within_decideDecode engine priv.status priv fun due =>
          { announced := announced
            complete := reminded.2.2
            packets := due.2.trans_le
              (counted.packets (received_inside log inside)) }]
      unfold Traced.Within
      rw [scDecPacketDecode_remind engine frame priv reminded]
    · apply iff_of_true
      · unfold Traced.Within
        by_cases lead : takesLead frame priv.leadCode
        · rw [scDecPacketDecode_lead engine frame priv lead]
          intro event member
          cases member
        · rw [scDecPacketDecode_ignored engine frame priv lead pushed reminded]
          intro event member
          cases member
      · intro impossible
        exact absurd impossible reminded

/-! ### Runs -/

/-- Every access so far lies in its object. -/
def insideSession (session : Session) : Prop :=
  ∀ event ∈ session.log, event.inside

/-- The call's frame is bounded. -/
def boundedCall (session : Session) (call : Call) : Prop :=
  session.stopped = false →
    boundedFrame call.engine call.frame
      (session.priv.withStatus call.status)

theorem insideSession_turn (session : Session) (call : Call)
    (counted : countedSession session)
    (announced : Announced session.priv.leadCode)
    (inside : insideSession session) :
    insideSession (decodeTurn session call) ↔ boundedCall session call := by
  unfold boundedCall
  cases running : session.stopped with
  | true =>
      rw [decodeTurn_stopped session call running]
      apply iff_of_true inside
      intro impossible
      contradiction
  | false =>
      rw [decodeTurn_running session call running, forall_prop_of_true rfl,
        ← within_call_iff call.engine call.frame
          (session.priv.withStatus call.status) session.log counted announced
          inside]
      unfold insideSession Traced.Within
      constructor
      · intro all event member
        exact all event (List.mem_append_right _ member)
      · intro new event member
        rcases List.mem_append.mp member with early | late
        · exact inside event early
        · exact new event late

theorem announced_turn (session : Session) (call : Call)
    (announced : Announced session.priv.leadCode) :
    Announced (decodeTurn session call).priv.leadCode := by
  cases running : session.stopped with
  | true =>
      rw [decodeTurn_stopped session call running]
      exact announced
  | false =>
      rw [decodeTurn_running session call running]
      exact Announced.call (session.priv.withStatus call.status) announced
        call.engine call.frame

/-- In every run from the start, every access stays inside exactly if every
frame is bounded. -/
theorem insideAlways_iff (aesKey : Buffer Byte 16) (calls : List Call) :
    Always decodeTurn insideSession (wlanSmartConfigStart aesKey) calls ↔
      Along decodeTurn boundedCall (wlanSmartConfigStart aesKey) calls := by
  apply always_iff_along insideSession boundedCall fun session =>
    countedSession session ∧ Announced session.priv.leadCode
  · intro session call invariant _ _
    exact ⟨countedSession_turn session call invariant.1,
      announced_turn session call invariant.2⟩
  · intro session call invariant inside
    exact insideSession_turn session call invariant.1 invariant.2 inside
  · exact ⟨counted_start, announced_start⟩
  · intro event member
    cases member

/-- A packet with index 251, which the bitmap turns away and the buffer does
not. -/
def packetZeroCalls : List Call :=
  [ { status := .searchChan, engine := noEngine, frame := leadFrame 1 6 },
    { status := .lockedChan, engine := noEngine, frame := leadFrame 2 2 },
    { status := .lockedChan, engine := noEngine, frame := leadFrame 3 1 },
    { status := .lockedChan, engine := noEngine, frame := leadFrame 4 7 },
    { status := .lockedChan, engine := noEngine, frame := leadFrame 1 6 },
    { status := .lockedChan, engine := noEngine, frame := scFrame 0 1 2 } ]

theorem packetZero_outside :
    ¬ Always decodeTurn insideSession
      (wlanSmartConfigStart (Buffer.fill 16 0)) packetZeroCalls := by
  intro always
  have last := always packetZeroCalls List.prefix_rfl
  have log : (run decodeTurn (wlanSmartConfigStart (Buffer.fill 16 0))
      packetZeroCalls).log = [.store .srcData 502 2] := by
    decide +kernel
  unfold insideSession at last
  rw [log] at last
  have outside := last _ List.mem_cons_self
  change 2 = 0 ∨ (0 : Int) ≤ 502 ∧ (502 : Int) + (2 : Nat) ≤ ((128 : Nat) : Int)
    at outside
  omega

end XR872.SmartConfig
