/-
When decoding starts, and what `packet_count` counts.

The counter goes up with the first mark of any index up to 127, also of an index
behind the last packet. It is the number of indexes received below the total,
and decoding starts with all of them received, exactly if no such index is
pushed.
-/

import XR872.Library.Run
import XR872.SmartConfig.DecodeSpec

namespace XR872.SmartConfig

open BitView
open Buffers
open Bitmaps
open Traces
open Runs

/-! ### Received indexes -/

def remember (seen : Finset Nat) : Event → Finset Nat
  | .reset => ∅
  | .store .srcData offset len =>
      if len = 2 then insert (offset / 2).toNat seen else seen
  | _ => seen

def received (log : List Event) : Finset Nat := log.foldl remember ∅

theorem received_append (log tail : List Event) :
    received (log ++ tail) = tail.foldl remember (received log) :=
  List.foldl_append ..

theorem remember_quiet (seen : Finset Nat) (event : Event)
    (quiet : event.quiet) : remember seen event = seen := by
  cases event with
  | store region offset len =>
      cases region with
      | srcData => exact if_neg quiet
      | _ => rfl
  | reset => exact absurd quiet id
  | _ => rfl

theorem received_quiet (log tail : List Event)
    (quiet : ∀ event ∈ tail, event.quiet) :
    received (log ++ tail) = received log := by
  induction tail generalizing log with
  | nil => rw [List.append_nil]
  | cons event rest ih =>
      have one : received (log ++ [event]) = received log := by
        rw [received_append]
        exact remember_quiet _ _ (quiet event List.mem_cons_self)
      rw [List.append_cons, ih _ fun other member =>
        quiet other (List.mem_cons_of_mem _ member), one]

theorem countEvents_quiet (lead : LeadCode) (index : Nat) :
    ∀ event ∈ countEvents lead index, event.quiet := by
  intro event member
  unfold countEvents at member
  split at member
  · cases member
  · split at member
    · rw [List.mem_singleton.mp member]
      trivial
    · rcases List.mem_cons.mp member with first | later
      · rw [first]
        trivial
      · rw [List.mem_singleton.mp later]
        trivial

def pushedLog (log : List Event) (lead : LeadCode) (index : Nat) :
    List Event :=
  log ++ (countEvents lead index ++ [.store .srcData (2 * index : Nat) 2])

theorem received_pushed (log : List Event) (lead : LeadCode) (index : Nat) :
    received (pushedLog log lead index) = insert index (received log) := by
  have half : (((2 * index : Nat) : Int) / 2).toNat = index := by omega
  unfold pushedLog
  rw [← List.append_assoc, received_append,
    received_quiet _ _ (countEvents_quiet lead index)]
  change insert (((2 * index : Nat) : Int) / 2).toNat (received log) = _
  rw [half]

theorem received_reset (log : List Event) :
    received (log ++ [.reset, .store .srcData 0 1]) = ∅ := by
  rw [received_append]
  rfl

/-! ### Decodings -/

def DecodesWhole (log : List Event) : Prop :=
  ∀ before total after, log = before ++ .decode total :: after →
    ∀ index < total, index ∈ received before

theorem decodesWhole_concat (log : List Event) (event : Event) :
    DecodesWhole (log ++ [event]) ↔
      DecodesWhole log ∧
        ∀ total, event = .decode total →
          ∀ index < total, index ∈ received log := by
  constructor
  · intro whole
    constructor
    · intro before total after split
      apply whole before total (after ++ [event])
      rw [split, List.append_assoc, List.cons_append]
    · intro total same
      apply whole log total []
      rw [same]
  · intro both before total after split
    rcases List.eq_nil_or_concat after with none | some
    · rw [none] at split
      obtain ⟨front, last⟩ := List.append_inj' split rfl
      rw [← front]
      exact both.2 total (List.cons.inj last).1
    · obtain ⟨rest, final, tail⟩ := some
      rw [tail, List.concat_eq_append, ← List.cons_append,
        ← List.append_assoc] at split
      obtain ⟨front, _⟩ := List.append_inj' split rfl
      exact both.1 before total rest front

theorem decodesWhole_append (log tail : List Event)
    (none : ∀ total, Event.decode total ∉ tail) :
    DecodesWhole (log ++ tail) ↔ DecodesWhole log := by
  induction tail generalizing log with
  | nil => rw [List.append_nil]
  | cons event rest ih =>
      rw [List.append_cons, ih _ fun total member =>
        none total (List.mem_cons_of_mem _ member), decodesWhole_concat]
      apply and_iff_left
      intro total same
      rw [same] at none
      exact absurd List.mem_cons_self (none total)

theorem quiet_not_decode (tail : List Event)
    (quiet : ∀ event ∈ tail, event.quiet) (total : Nat) :
    Event.decode total ∉ tail :=
  fun member => quiet _ member

structure Whole (lead : LeadCode) (log : List Event) : Prop where
  decoded : DecodesWhole log
  counted : lead.packetCount =
    ((received log).filter fun index => index < lead.packetTotal).card

/-- What the decoder keeps whatever it is sent: the bitmap shows the indexes
received, and the counter is the number of marks. -/
structure Counted (lead : LeadCode) (log : List Event) : Prop where
  marks : ∀ index < 128,
    (marked lead.countPkt index = true ↔ index ∈ received log)
  count : lead.packetCount = (markedSet lead.countPkt 128).card
  total : lead.packetTotal ≤ 129
  gap : 128 ∉ received log
  open_ : lead.leadCompleteFlag = false → received log = ∅

theorem counted_start : Counted scResetLeadCode [] :=
  { marks := by
      intro index _
      constructor
      · intro set
        rw [show marked scResetLeadCode.countPkt index = false from
          marked_fill index] at set
        contradiction
      · intro member
        cases member
    count := (congrArg Finset.card (markedSet_fill (n := 16) 128)).symm
    total := Nat.zero_le _
    gap := Finset.notMem_empty _
    open_ := fun _ => rfl }

theorem Counted.after_reset (log : List Event) (cleared : received log = ∅) :
    Counted scResetLeadCode log :=
  { counted_start with
    marks := by
      rw [cleared]
      exact counted_start.marks
    gap := by
      rw [cleared]
      exact Finset.notMem_empty _
    open_ := fun _ => cleared }

theorem Counted.same_received {lead : LeadCode} {log longer : List Event}
    (counted : Counted lead log) (same : received longer = received log) :
    Counted lead longer :=
  { counted with
    marks := same ▸ counted.marks
    gap := same ▸ counted.gap
    open_ := same ▸ counted.open_ }

theorem Counted.markedSet_eq {lead : LeadCode} {log : List Event}
    (counted : Counted lead log) :
    markedSet lead.countPkt 128 =
      (received log).filter fun index => index < 128 := by
  apply Finset.ext
  intro index
  rw [mem_markedSet, Finset.mem_filter]
  constructor
  · intro both
    exact ⟨(counted.marks index both.1).mp both.2, both.1⟩
  · intro both
    exact ⟨both.2, (counted.marks index both.2).mpr both.1⟩

/-- The total leaves no index between the bitmap's and the rejected ones. -/
theorem Counted.filter_subset {lead : LeadCode} {log : List Event}
    (counted : Counted lead log) :
    (received log).filter (fun index => index < lead.packetTotal) ⊆
      (received log).filter fun index => index < 128 := by
  intro index member
  obtain ⟨present, below⟩ := Finset.mem_filter.mp member
  have differs : index ≠ 128 := by
    intro same
    rw [same] at present
    exact counted.gap present
  have total := counted.total
  exact Finset.mem_filter.mpr ⟨present, by omega⟩

/-- While the counter is right, no index behind the last packet is marked. -/
theorem Counted.below {lead : LeadCode} {log : List Event}
    (counted : Counted lead log) (whole : Whole lead log) (index : Nat)
    (present : index ∈ received log) (tracked : index < 128) :
    index < lead.packetTotal := by
  have cards : ((received log).filter fun index => index < 128).card ≤
      ((received log).filter fun index => index < lead.packetTotal).card := by
    rw [← counted.markedSet_eq, ← counted.count, whole.counted]
  have same := Finset.eq_of_subset_of_card_le counted.filter_subset cards
  have member : index ∈ (received log).filter fun index => index < 128 :=
    Finset.mem_filter.mpr ⟨present, tracked⟩
  rw [← same] at member
  exact (Finset.mem_filter.mp member).2

/-! ### A push -/

theorem packetIndex_range (frame : Frame) (lead : LeadCode)
    (pushed : pushes frame lead) :
    packetIndex frame.packetNum < 123 ∨ packetIndex frame.packetNum = 251 := by
  have number := pushed.2.1
  unfold packetIndex
  omega

theorem Counted.push {lead : LeadCode} {log : List Event} {index : Nat}
    (counted : Counted lead log) (complete : lead.leadCompleteFlag = true)
    (range : index < 123 ∨ index = 251) :
    Counted (countedLead lead index) (pushedLog log lead index) := by
  have gap : 128 ∉ received (pushedLog log lead index) := by
    rw [received_pushed, Finset.mem_insert]
    intro either
    rcases either with same | old
    · omega
    · exact counted.gap old
  unfold countedLead
  by_cases far : 127 < index
  · rw [if_pos far]
    exact
      { counted with
        marks := by
          intro other within
          have differs : other ≠ index := by omega
          rw [received_pushed, Finset.mem_insert, counted.marks other within]
          exact (or_iff_right differs).symm
        gap := gap
        open_ := fun incomplete => by
          rw [complete] at incomplete
          contradiction }
  · rw [if_neg far]
    have tracked : index < 128 := by omega
    by_cases old : marked lead.countPkt index = true
    · rw [if_pos old]
      apply counted.same_received
      rw [received_pushed]
      exact Finset.insert_eq_of_mem ((counted.marks index tracked).mp old)
    · rw [if_neg old]
      have inside : index / 8 < 16 := by omega
      exact
        { marks := by
            intro other within
            rw [received_pushed, Finset.mem_insert, marked_mark _ _ _ inside,
              Bool.or_eq_true, decide_eq_true_iff, counted.marks other within]
            exact Or.comm
          count := by
            have fresh : marked lead.countPkt index = false :=
              Bool.eq_false_iff.mpr old
            rw [card_markedSet_mark _ _ _ inside tracked fresh,
              ← counted.count]
          total := counted.total
          gap := gap
          open_ := fun incomplete => by
            change lead.leadCompleteFlag = false at incomplete
            rw [complete] at incomplete
            contradiction }

theorem countedLead_total (lead : LeadCode) (index : Nat) :
    (countedLead lead index).packetTotal = lead.packetTotal := by
  unfold countedLead
  split
  · rfl
  · split
    · rfl
    · rfl

theorem countedLead_flag (lead : LeadCode) (index : Nat) :
    (countedLead lead index).leadCompleteFlag = lead.leadCompleteFlag := by
  unfold countedLead
  split
  · rfl
  · split
    · rfl
    · rfl

theorem decodesWhole_pushed (log : List Event) (lead : LeadCode) (index : Nat) :
    DecodesWhole (pushedLog log lead index) ↔ DecodesWhole log := by
  apply decodesWhole_append
  intro total member
  rcases List.mem_append.mp member with early | late
  · exact countEvents_quiet lead index _ early
  · exact absurd (List.mem_singleton.mp late) (by simp)

theorem filter_pushed_beyond (log : List Event) (lead : LeadCode)
    (index total : Nat) (beyond : total ≤ index) :
    (received (pushedLog log lead index)).filter (fun other => other < total) =
      (received log).filter fun other => other < total := by
  rw [received_pushed, Finset.filter_insert, if_neg (Nat.not_lt.mpr beyond)]

/-- A packet of the transfer keeps the counter right, and so does the index
the bitmap turns away. -/
theorem Whole.push {lead : LeadCode} {log : List Event} {index : Nat}
    (counted : Counted lead log) (whole : Whole lead log)
    (range : index < 123 ∨ index = 251)
    (part : 127 < index ∨ index < lead.packetTotal) :
    Whole (countedLead lead index) (pushedLog log lead index) := by
  have bound := counted.total
  refine
    { decoded := (decodesWhole_pushed log lead index).mpr whole.decoded
      counted := ?_ }
  rw [countedLead_total]
  by_cases far : 127 < index
  · have beyond : lead.packetTotal ≤ index := by omega
    rw [filter_pushed_beyond _ _ _ _ beyond]
    unfold countedLead
    rw [if_pos far]
    exact whole.counted
  · have below : index < lead.packetTotal := by omega
    have tracked : index < 128 := by omega
    rw [received_pushed, Finset.filter_insert, if_pos below]
    unfold countedLead
    rw [if_neg far]
    by_cases old : marked lead.countPkt index = true
    · have present := (counted.marks index tracked).mp old
      rw [if_pos old, Finset.insert_eq_of_mem
        (Finset.mem_filter.mpr ⟨present, below⟩)]
      exact whole.counted
    · have absent : index ∉ (received log).filter
          fun other => other < lead.packetTotal := by
        intro member
        exact old ((counted.marks index tracked).mpr
          (Finset.mem_filter.mp member).1)
      rw [if_neg old, Finset.card_insert_of_notMem absent, ← whole.counted]

/-- An index behind the last packet is counted, and is not one of the packets
of the transfer. -/
theorem Whole.push_beyond {lead : LeadCode} {log : List Event} (index : Nat)
    (counted : Counted lead log) (whole : Whole lead log)
    (tracked : index < 128) (beyond : lead.packetTotal ≤ index) :
    (countedLead lead index).packetCount =
      ((received (pushedLog log lead index)).filter
        fun other => other < lead.packetTotal).card + 1 := by
  have fresh : ¬ marked lead.countPkt index = true := by
    intro old
    have below := counted.below whole index
      ((counted.marks index tracked).mp old) tracked
    omega
  rw [filter_pushed_beyond _ _ _ _ beyond, ← whole.counted]
  unfold countedLead
  rw [if_neg (by omega), if_neg fresh]

/-! ### The decision -/

def enteredLog (log : List Event) (lead : LeadCode) : List Event :=
  log ++ [.decode lead.packetTotal]

theorem received_entered (log : List Event) (lead : LeadCode) :
    received (enteredLog log lead) = received log := by
  unfold enteredLog
  rw [received_append]
  rfl

/-- Where the decision leads: nothing happens, or decoding is entered and ends
with the lead code as it was, or it is entered and ends with a reset. -/
theorem decideDecode_log (engine : CryptoEngine) (status : ScStatus)
    (priv : Priv) (log : List Event) :
    let done := decideDecode engine status priv
    (¬ priv.due ∧ done.state.leadCode = priv.leadCode ∧ done.events = []) ∨
      (priv.due ∧ ∃ tail, (∀ event ∈ tail, event.quiet) ∧
        ((done.state.leadCode = priv.leadCode ∧
            log ++ done.events = enteredLog log priv.leadCode ++ tail) ∨
          (done.state.leadCode = scResetLeadCode ∧
            log ++ done.events = enteredLog log priv.leadCode ++ tail ++
              [.reset, .store .srcData 0 1]))) := by
  intro done
  by_cases due : priv.due
  · have quiet := quiet_decodeFields engine priv.leadCode priv.keyed
    cases run : decodeFields engine priv.leadCode priv.keyed priv with
    | mk value after events =>
        have silent := quiet.events priv
        have settled := quiet.settled priv
        unfold Traced.Within at silent
        rw [run] at silent settled
        have lead : after.leadCode = priv.leadCode := congrArg Prod.fst settled
        refine Or.inr ⟨due, events, silent, ?_⟩
        unfold enteredLog done
        rw [decideDecode_due engine status priv after due value events run]
        cases value with
        | none => exact Or.inl ⟨lead, by simp [decided]⟩
        | some decoded =>
            cases decoded with
            | true => exact Or.inl ⟨lead, by simp [decided]⟩
            | false => exact Or.inr ⟨rfl, by simp [decided]⟩
  · refine Or.inl ⟨due, ?_⟩
    unfold done
    rw [decideDecode_idle engine status priv due]
    exact ⟨rfl, rfl⟩

theorem Counted.decide (priv : Priv) {log : List Event}
    (counted : Counted priv.leadCode log) (engine : CryptoEngine)
    (status : ScStatus) :
    Counted (decideDecode engine status priv).state.leadCode
      (log ++ (decideDecode engine status priv).events) := by
  rcases decideDecode_log engine status priv log with idle | entered
  · rw [idle.2.1, idle.2.2, List.append_nil]
    exact counted
  · obtain ⟨_, tail, quiet, ended⟩ := entered
    rcases ended with kept | reset
    · rw [kept.1, kept.2]
      apply counted.same_received
      rw [received_quiet _ _ quiet, received_entered]
    · rw [reset.1, reset.2]
      apply Counted.after_reset
      rw [received_reset]

theorem decodesWhole_entered (log tail : List Event) (lead : LeadCode)
    (quiet : ∀ event ∈ tail, event.quiet) :
    DecodesWhole (enteredLog log lead ++ tail) ↔
      DecodesWhole log ∧ ∀ index < lead.packetTotal, index ∈ received log := by
  rw [decodesWhole_append _ _ (quiet_not_decode tail quiet)]
  unfold enteredLog
  rw [decodesWhole_concat]
  apply and_congr_right
  intro _
  constructor
  · intro all
    exact all _ rfl
  · intro all total same
    rw [← Event.decode.inj same]
    exact all

theorem decodesWhole_reset (log : List Event) :
    DecodesWhole (log ++ [.reset, .store .srcData 0 1]) ↔ DecodesWhole log := by
  apply decodesWhole_append
  intro total member
  simp at member

theorem whole_reset (log : List Event) (decoded : DecodesWhole log)
    (cleared : received log = ∅) : Whole scResetLeadCode log :=
  { decoded := decoded
    counted := by
      rw [cleared]
      rfl }

/-- With the counter right, a full count is a full set of packets. -/
theorem Whole.all_received {lead : LeadCode} {log : List Event}
    (whole : Whole lead log) (full : lead.packetTotal = lead.packetCount) :
    ∀ index < lead.packetTotal, index ∈ received log := by
  have within : (received log).filter (fun index => index < lead.packetTotal) ⊆
      Finset.range lead.packetTotal := by
    intro index member
    exact Finset.mem_range.mpr (Finset.mem_filter.mp member).2
  have cards : (Finset.range lead.packetTotal).card ≤
      ((received log).filter fun index => index < lead.packetTotal).card := by
    rw [Finset.card_range, ← whole.counted, full]
  have same := Finset.eq_of_subset_of_card_le within cards
  intro index below
  have member := Finset.mem_range.mpr below
  rw [← same] at member
  exact (Finset.mem_filter.mp member).1

theorem Whole.decide (priv : Priv) {log : List Event}
    (whole : Whole priv.leadCode log) (engine : CryptoEngine)
    (status : ScStatus) :
    Whole (decideDecode engine status priv).state.leadCode
      (log ++ (decideDecode engine status priv).events) := by
  rcases decideDecode_log engine status priv log with idle | entered
  · rw [idle.2.1, idle.2.2, List.append_nil]
    exact whole
  · obtain ⟨due, tail, quiet, ended⟩ := entered
    have decoded := (decodesWhole_entered log tail priv.leadCode quiet).mpr
      ⟨whole.decoded, whole.all_received due.2⟩
    rcases ended with kept | reset
    · rw [kept.1, kept.2]
      exact
        { decoded := decoded
          counted := by
            rw [received_quiet _ _ quiet, received_entered]
            exact whole.counted }
    · rw [reset.1, reset.2]
      apply whole_reset
      · exact (decodesWhole_reset _).mpr decoded
      · exact received_reset _

/-- With one index too many in the counter, either it stays wrong or decoding
starts before the last packet. -/
theorem not_whole_decide {priv : Priv} {log : List Event}
    (engine : CryptoEngine) (status : ScStatus)
    (surplus : priv.leadCode.packetCount =
      ((received log).filter
        fun index => index < priv.leadCode.packetTotal).card + 1) :
    ¬ Whole (decideDecode engine status priv).state.leadCode
      (log ++ (decideDecode engine status priv).events) := by
  intro whole
  rcases decideDecode_log engine status priv log with idle | entered
  · rw [idle.2.1, idle.2.2, List.append_nil] at whole
    have counted := whole.counted
    omega
  · obtain ⟨due, tail, quiet, ended⟩ := entered
    have decoded : DecodesWhole (enteredLog log priv.leadCode ++ tail) := by
      rcases ended with kept | reset
      · rw [← kept.2]
        exact whole.decoded
      · apply (decodesWhole_reset _).mp
        rw [← reset.2]
        exact whole.decoded
    have all := ((decodesWhole_entered log tail priv.leadCode quiet).mp decoded).2
    have within : Finset.range priv.leadCode.packetTotal ⊆
        (received log).filter fun index => index < priv.leadCode.packetTotal := by
      intro index member
      have below := Finset.mem_range.mp member
      exact Finset.mem_filter.mpr ⟨all index below, below⟩
    have cards := Finset.card_le_card within
    have full := due.2
    rw [Finset.card_range] at cards
    omega

/-! ### A call -/

theorem takeLeadCode_kept (lead : LeadCode) (packetNum : Nat) (data : Byte)
    (status : ScStatus) (bounded : lead.packetTotal ≤ 129) :
    let next := (takeLeadCode lead packetNum data status).2.1
    next.countPkt = lead.countPkt ∧ next.packetCount = lead.packetCount ∧
      next.packetTotal ≤ 129 := by
  have small : data.toNat / 2 + 1 + data.toNat % 2 ≤ 129 := by
    have byte := data.isLt
    omega
  unfold takeLeadCode
  split
  · exact ⟨rfl, rfl, bounded⟩
  · exact ⟨rfl, rfl, small⟩
  · exact ⟨rfl, rfl, bounded⟩
  · exact ⟨rfl, rfl, bounded⟩
  · exact ⟨rfl, rfl, bounded⟩

theorem decGetLeadCode_kept (frame : Frame) (lead : LeadCode) (packetNum : Nat)
    (status : ScStatus) (bounded : lead.packetTotal ≤ 129) :
    let next := (decGetLeadCode frame lead packetNum status).2.1
    next.countPkt = lead.countPkt ∧ next.packetCount = lead.packetCount ∧
      next.packetTotal ≤ 129 := by
  unfold decGetLeadCode
  dsimp only
  split
  · exact ⟨rfl, rfl, bounded⟩
  · split
    · exact ⟨rfl, rfl, bounded⟩
    · split
      · exact ⟨rfl, rfl, bounded⟩
      · exact takeLeadCode_kept { lead with lockedMacFlag := true } _ _ _ bounded

theorem ledCode_kept (frame : Frame) (priv : Priv)
    (bounded : priv.leadCode.packetTotal ≤ 129) :
    (ledCode frame priv).countPkt = priv.leadCode.countPkt ∧
      (ledCode frame priv).packetCount = priv.leadCode.packetCount ∧
      (ledCode frame priv).packetTotal ≤ 129 := by
  have kept := decGetLeadCode_kept frame priv.leadCode frame.packetNum
    priv.status bounded
  unfold ledCode
  dsimp only
  split
  · exact kept
  · exact kept

theorem Counted.led {frame : Frame} {priv : Priv} {log : List Event}
    (counted : Counted priv.leadCode log)
    (lead : takesLead frame priv.leadCode) :
    Counted (ledCode frame priv) log := by
  obtain ⟨bitmap, count, total⟩ := ledCode_kept frame priv counted.total
  exact
    { marks := by
        rw [bitmap]
        exact counted.marks
      count := by
        rw [bitmap, count]
        exact counted.count
      total := total
      gap := counted.gap
      open_ := fun _ => counted.open_ lead.2.2 }

theorem Whole.led {frame : Frame} {priv : Priv} {log : List Event}
    (counted : Counted priv.leadCode log) (whole : Whole priv.leadCode log)
    (lead : takesLead frame priv.leadCode) :
    Whole (ledCode frame priv) log := by
  obtain ⟨_, count, _⟩ := ledCode_kept frame priv counted.total
  have none := counted.open_ lead.2.2
  have zero := whole.counted
  exact
    { decoded := whole.decoded
      counted := by
        rw [none] at zero
        rw [count, none, zero]
        rfl }

def pushesBeyond (frame : Frame) (lead : LeadCode) : Prop :=
  pushes frame lead ∧ 5 ≤ frame.packetNum ∧
    lead.packetTotal ≤ frame.packetNum - 5

theorem packetIndex_eq (frame : Frame) (least : 5 ≤ frame.packetNum) :
    packetIndex frame.packetNum = frame.packetNum - 5 := by
  have byte := (frame.addr3.cells.getD 3 0).isLt
  change frame.packetNum < 256 at byte
  unfold packetIndex
  omega

theorem scDecPacketDecode_cases (engine : CryptoEngine) (frame : Frame)
    (priv : Priv) (log : List Event) :
    let done := scDecPacketDecode engine frame priv
    (done.state.leadCode = priv.leadCode ∧ done.events = [] ∧
        ¬ pushes frame priv.leadCode) ∨
      (takesLead frame priv.leadCode ∧
        done.state.leadCode = ledCode frame priv ∧ done.events = [] ∧
        ¬ pushes frame priv.leadCode) ∨
      (reminds frame priv.leadCode ∧
        done = decideDecode engine priv.status priv ∧
        ¬ pushes frame priv.leadCode) ∨
      (pushes frame priv.leadCode ∧
        let index := packetIndex frame.packetNum
        let after := pushedPriv priv index frame.data
        let longer := pushedLog log priv.leadCode index
        (done.state.leadCode = after.leadCode ∧
            log ++ done.events = longer) ∨
          (done.state = (decideDecode engine priv.status after).state ∧
            log ++ done.events =
              longer ++ (decideDecode engine priv.status after).events)) := by
  intro done
  by_cases pushed : pushes frame priv.leadCode
  · refine Or.inr (Or.inr (Or.inr ⟨pushed, ?_⟩))
    unfold done pushedLog
    rw [scDecPacketDecode_push engine frame priv pushed]
    dsimp only
    split
    · exact Or.inl ⟨rfl, rfl⟩
    · split
      · refine Or.inr ⟨rfl, ?_⟩
        simp only [List.append_assoc]
      · exact Or.inl ⟨rfl, rfl⟩
  · by_cases lead : takesLead frame priv.leadCode
    · refine Or.inr (Or.inl ⟨lead, ?_⟩)
      unfold done
      rw [scDecPacketDecode_lead engine frame priv lead]
      exact ⟨rfl, rfl, pushed⟩
    · by_cases reminded : reminds frame priv.leadCode
      · exact Or.inr (Or.inr (Or.inl ⟨reminded,
          scDecPacketDecode_remind engine frame priv reminded, pushed⟩))
      · refine Or.inl ?_
        unfold done
        rw [scDecPacketDecode_ignored engine frame priv lead pushed reminded]
        exact ⟨rfl, rfl, pushed⟩

theorem Counted.call (priv : Priv) {log : List Event}
    (counted : Counted priv.leadCode log) (engine : CryptoEngine)
    (frame : Frame) :
    Counted (scDecPacketDecode engine frame priv).state.leadCode
      (log ++ (scDecPacketDecode engine frame priv).events) := by
  rcases scDecPacketDecode_cases engine frame priv log with
    ignored | lead | reminded | pushed
  · rw [ignored.1, ignored.2.1, List.append_nil]
    exact counted
  · rw [lead.2.1, lead.2.2.1, List.append_nil]
    exact counted.led lead.1
  · rw [reminded.2.1]
    exact counted.decide priv engine priv.status
  · have after := counted.push pushed.1.2.2 (packetIndex_range frame _ pushed.1)
    rcases pushed.2 with early | decided
    · rw [early.1, early.2]
      exact after
    · rw [decided.1, decided.2]
      exact Counted.decide (pushedPriv priv _ frame.data) after engine priv.status

/-- The step: a call keeps the counter right exactly if it pushes no index
behind the last packet. -/
theorem whole_call_iff (priv : Priv) {log : List Event}
    (counted : Counted priv.leadCode log) (whole : Whole priv.leadCode log)
    (engine : CryptoEngine) (frame : Frame) :
    Whole (scDecPacketDecode engine frame priv).state.leadCode
        (log ++ (scDecPacketDecode engine frame priv).events) ↔
      ¬ pushesBeyond frame priv.leadCode := by
  rcases scDecPacketDecode_cases engine frame priv log with
    ignored | lead | reminded | pushed
  · rw [ignored.1, ignored.2.1, List.append_nil]
    exact iff_of_true whole fun beyond => ignored.2.2 beyond.1
  · rw [lead.2.1, lead.2.2.1, List.append_nil]
    exact iff_of_true (whole.led counted lead.1) fun beyond =>
      lead.2.2.2 beyond.1
  · rw [reminded.2.1]
    exact iff_of_true (whole.decide priv engine priv.status) fun beyond =>
      reminded.2.2 beyond.1
  · obtain ⟨push, log_⟩ := pushed
    have range := packetIndex_range frame _ push
    by_cases beyond : pushesBeyond frame priv.leadCode
    · apply iff_of_false _ (not_not_intro beyond)
      have index := packetIndex_eq frame beyond.2.1
      have number := push.2.1
      have surplus := whole.push_beyond
        (packetIndex frame.packetNum) counted (by omega) (index ▸ beyond.2.2)
      rcases log_ with early | decided
      · rw [early.1, early.2]
        intro after
        have count := after.counted
        change (countedLead _ _).packetCount = _ at count
        change _ = ((received _).filter
          fun other => other < (countedLead _ _).packetTotal).card at count
        rw [countedLead_total] at count
        omega
      · rw [decided.1, decided.2]
        apply not_whole_decide
        change (countedLead _ _).packetCount = ((received _).filter
          fun other => other < (countedLead _ _).packetTotal).card + 1
        rw [countedLead_total]
        exact surplus
    · apply iff_of_true _ beyond
      have part : 127 < packetIndex frame.packetNum ∨
          packetIndex frame.packetNum < priv.leadCode.packetTotal := by
        rcases push.2.1 with zero | packet
        · left
          rw [zero]
          decide
        · right
          rw [packetIndex_eq frame packet.1]
          by_contra outside
          exact beyond ⟨push, packet.1, by omega⟩
      have after := whole.push counted range part
      rcases log_ with early | decided
      · rw [early.1, early.2]
        exact after
      · rw [decided.1, decided.2]
        exact Whole.decide (pushedPriv priv _ frame.data) after engine priv.status

/-! ### Runs -/

/-- `packet_count` is the number of packets of the transfer received since the
reset, and `dec_data_decode` has been entered only with all of them. -/
def wholeSession (session : Session) : Prop :=
  Whole session.priv.leadCode session.log

def countedSession (session : Session) : Prop :=
  Counted session.priv.leadCode session.log

/-- The call pushes no index behind the last packet. -/
def countsPackets (session : Session) (call : Call) : Prop :=
  session.stopped = false → ¬ pushesBeyond call.frame session.priv.leadCode

theorem decodeTurn_running (session : Session) (call : Call)
    (running : session.stopped = false) :
    let priv := session.priv.withStatus call.status
    let done := scDecPacketDecode call.engine call.frame priv
    decodeTurn session call =
      { priv := done.state
        log := session.log ++ done.events
        stopped := done.value.isNone } := by
  intro priv done
  unfold decodeTurn Session.perform
  rw [running]
  rfl

theorem decodeTurn_stopped (session : Session) (call : Call)
    (stopped : session.stopped = true) :
    decodeTurn session call = session := by
  unfold decodeTurn Session.perform
  rw [stopped]
  rfl

theorem countedSession_turn (session : Session) (call : Call)
    (counted : countedSession session) :
    countedSession (decodeTurn session call) := by
  cases running : session.stopped with
  | true =>
      rw [decodeTurn_stopped session call running]
      exact counted
  | false =>
      rw [decodeTurn_running session call running]
      exact Counted.call (session.priv.withStatus call.status) counted _ _

theorem wholeSession_turn (session : Session) (call : Call)
    (counted : countedSession session) (whole : wholeSession session) :
    wholeSession (decodeTurn session call) ↔ countsPackets session call := by
  unfold countsPackets
  cases running : session.stopped with
  | true =>
      rw [decodeTurn_stopped session call running]
      apply iff_of_true whole
      intro impossible
      contradiction
  | false =>
      rw [decodeTurn_running session call running]
      have exact_ := whole_call_iff
        (session.priv.withStatus call.status) counted whole call.engine
        call.frame
      constructor
      · intro after _
        exact exact_.mp after
      · intro clean
        exact exact_.mpr (clean rfl)

/-- In every run from the start, the counter is right and decoding starts with
all packets exactly if no call pushes an index behind the last packet. -/
theorem wholeDecoding_iff (aesKey : Buffer Byte 16) (calls : List Call) :
    Always decodeTurn wholeSession (wlanSmartConfigStart aesKey) calls ↔
      Along decodeTurn countsPackets (wlanSmartConfigStart aesKey) calls := by
  apply always_iff_along wholeSession countsPackets countedSession
  · intro session call counted _ _
    exact countedSession_turn session call counted
  · exact wholeSession_turn
  · exact counted_start
  · exact whole_reset [] (by intro before total after impossible; simp at impossible) rfl

def noEngine : CryptoEngine :=
  { pwdLocked := false
    ssidLocked := false
    decrypt := fun _ => Buffer.fill 16 0 }

/-- A transfer of two packets of which the second is sent, and one with the
index behind it. -/
def beyondCalls : List Call :=
  [ { status := .searchChan, engine := noEngine, frame := leadFrame 1 6 },
    { status := .lockedChan, engine := noEngine, frame := leadFrame 2 2 },
    { status := .lockedChan, engine := noEngine, frame := leadFrame 3 1 },
    { status := .lockedChan, engine := noEngine, frame := leadFrame 4 7 },
    { status := .lockedChan, engine := noEngine, frame := leadFrame 1 6 },
    { status := .lockedChan, engine := noEngine, frame := dataFrame 1 0 0 },
    { status := .lockedChan, engine := noEngine, frame := dataFrame 2 0 0 } ]

/-- Decoding starts, and succeeds, without the first packet. -/
theorem beyondIndex_decoded :
    ¬ Always decodeTurn wholeSession
      (wlanSmartConfigStart (Buffer.fill 16 0)) beyondCalls := by
  intro always
  have last := always beyondCalls List.prefix_rfl
  have log : ((run decodeTurn (wlanSmartConfigStart (Buffer.fill 16 0))
      beyondCalls).log.take 7) =
      [ .load .countPkt 0 1, .store .countPkt 0 1, .store .srcData 2 2,
        .load .countPkt 0 1, .store .countPkt 0 1, .store .srcData 4 2,
        .decode 2 ] := by
    decide +kernel
  have split := List.take_append_drop 7 (run decodeTurn
    (wlanSmartConfigStart (Buffer.fill 16 0)) beyondCalls).log
  rw [log] at split
  have whole := last.decoded
    [ .load .countPkt 0 1, .store .countPkt 0 1, .store .srcData 2 2,
      .load .countPkt 0 1, .store .countPkt 0 1, .store .srcData 4 2 ] 2 _
    split.symm 0 (by decide)
  exact absurd whole (by decide)

end XR872.SmartConfig
