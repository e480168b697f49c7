/-
When the fragments of a run are complete.

The code counts on its own: fragment 0 counts what is there, and every later
fragment counts itself. The count is right as long as fragment 0 has a payload
and no fragment behind the total comes after it.
-/

import XR872.VoicePrint.Assembly

namespace XR872.VoicePrint

open BitView
open Buffers
open Collects
open Runs

/-! ### What the strings of a run make up -/

/-- The first fragment of the index. -/
def accepted (strings : List (List Byte)) (index : Nat) : Option Fragment :=
  first Fragment.index (strings.filterMap fragmentOf) index

def totalOf (strings : List (List Byte)) : Option Nat :=
  (accepted strings 0).bind Fragment.total

def Complete (strings : List (List Byte)) : Prop :=
  ∃ total, totalOf strings = some total ∧
    ∀ index, index < total → (accepted strings index).isSome = true

def payloads (strings : List (List Byte)) (total : Nat) : List Byte :=
  (List.range total).flatMap fun index =>
    ((accepted strings index).map Fragment.payload).getD []

section Accepted

variable (strings : List (List Byte)) (data : List Byte)

theorem accepted_index (index : Nat) (fragment : Fragment)
    (found : accepted strings index = some fragment) : fragment.index = index :=
  first_number Fragment.index _ index fragment found

theorem fragmentOf_total (fragment : Fragment)
    (read : fragmentOf data = some fragment) (zero : fragment.index = 0) :
    ∃ most, most < vpDecResultMaxNum ∧ fragment.total = some (most + 1) := by
  by_cases long : 2 ≤ data.length
  · obtain ⟨content, high, low, split⟩ := split_string data long
    rw [split, fragmentOf_split] at read
    split at read
    · exact (fragmentIn_index content fragment read).2.1 zero
    · cases read
  · rw [fragmentOf_short data (Nat.lt_of_not_le long)] at read
    cases read

theorem fragmentOf_nonempty (fragment : Fragment)
    (read : fragmentOf data = some fragment) (other : fragment.index ≠ 0) :
    fragment.payload ≠ [] := by
  by_cases long : 2 ≤ data.length
  · obtain ⟨content, high, low, split⟩ := split_string data long
    rw [split, fragmentOf_split] at read
    split at read
    · rename_i whole
      obtain ⟨least, _⟩ := sealed_length content high low whole
      exact fragmentIn_nonempty content fragment read other least
    · cases read
  · rw [fragmentOf_short data (Nat.lt_of_not_le long)] at read
    cases read

theorem accepted_total (fragment : Fragment)
    (found : accepted strings 0 = some fragment) :
    ∃ most, most < vpDecResultMaxNum ∧ totalOf strings = some (most + 1) := by
  obtain ⟨data, _, read⟩ := List.mem_filterMap.mp
    (first_mem Fragment.index _ 0 fragment found)
  obtain ⟨most, small, total⟩ := fragmentOf_total data fragment read
    (accepted_index strings 0 fragment found)
  refine ⟨most, small, ?_⟩
  unfold totalOf
  rw [found]
  exact total

theorem accepted_concat_none (noise : fragmentOf data = none) (index : Nat) :
    accepted (strings ++ [data]) index = accepted strings index := by
  unfold accepted
  rw [List.filterMap_append, List.filterMap_cons_none noise, List.filterMap_nil,
    List.append_nil]

variable (fragment : Fragment) (read : fragmentOf data = some fragment)

include read

theorem filterMap_concat : (strings ++ [data]).filterMap fragmentOf =
    strings.filterMap fragmentOf ++ [fragment] := by
  rw [List.filterMap_append, List.filterMap_cons_some read, List.filterMap_nil]

theorem accepted_concat_other (index : Nat) (apart : index ≠ fragment.index) :
    accepted (strings ++ [data]) index = accepted strings index := by
  unfold accepted
  rw [filterMap_concat strings data fragment read]
  exact first_concat_other Fragment.index _ fragment index apart

theorem accepted_concat_new (missing : accepted strings fragment.index = none) :
    accepted (strings ++ [data]) fragment.index = some fragment := by
  unfold accepted at missing ⊢
  rw [filterMap_concat strings data fragment read]
  exact first_concat_new Fragment.index _ fragment missing

theorem accepted_concat_old (other : Fragment)
    (known : accepted strings fragment.index = some other) (index : Nat) :
    accepted (strings ++ [data]) index = accepted strings index := by
  by_cases same : index = fragment.index
  · rw [same, known]
    unfold accepted at known ⊢
    rw [filterMap_concat strings data fragment read]
    exact first_concat_old Fragment.index _ fragment _ other known
  · exact accepted_concat_other strings data fragment read index same

end Accepted

theorem complete_congr (left right : List (List Byte))
    (same : ∀ index, accepted left index = accepted right index) :
    Complete left ↔ Complete right := by
  unfold Complete totalOf
  simp only [same]

/-! ### What is kept of them -/

def VpPriv.has (priv : VpPriv) (index : Nat) : Bool :=
  decide (priv.resultLen index ≠ 0)

structure Kept (strings : List (List Byte)) (priv : VpPriv) : Prop where
  missing : ∀ index, accepted strings index = none → priv.resultLen index = 0
  held : ∀ index fragment, accepted strings index = some fragment →
    fragment.payload ≠ [] ∧ priv.resultLen index = fragment.payload.length ∧
      (priv.result index).cells.take fragment.payload.length = fragment.payload
  total : priv.resultTotal = (totalOf strings).getD 0
  cnt : priv.resultCnt = count priv.has priv.resultTotal

section Kept

variable {strings : List (List Byte)} {priv : VpPriv}

theorem kept_zero : Kept [] vpPrivZero := by
  exact {
    missing := fun _ _ => rfl
    held := by
      intro index fragment found
      cases found
    total := rfl
    cnt := rfl }

theorem Kept.accepted_iff (kept : Kept strings priv) (index : Nat) :
    (accepted strings index).isSome = true ↔ priv.has index = true := by
  unfold VpPriv.has
  rw [decide_eq_true_iff]
  cases found : accepted strings index with
  | none =>
      rw [kept.missing index found]
      exact iff_of_false Bool.false_ne_true (not_not_intro rfl)
  | some fragment =>
      obtain ⟨nonempty, len, _⟩ := kept.held index fragment found
      rw [len]
      exact iff_of_true rfl (List.length_pos_iff.mpr nonempty).ne'

theorem Kept.new (kept : Kept strings priv) (index : Nat)
    (new : priv.resultLen index = 0) : accepted strings index = none := by
  cases found : accepted strings index with
  | none => rfl
  | some fragment =>
      have has := (kept.accepted_iff index).mp (by rw [found]; rfl)
      exact absurd new (of_decide_eq_true has)

theorem Kept.known (kept : Kept strings priv) (index : Nat)
    (known : priv.resultLen index ≠ 0) :
    ∃ fragment, accepted strings index = some fragment := by
  exact Option.isSome_iff_exists.mp
    ((kept.accepted_iff index).mpr (decide_eq_true known))

theorem Kept.complete_iff (kept : Kept strings priv) :
    Complete strings ↔
      0 < priv.resultTotal ∧ priv.resultCnt = priv.resultTotal := by
  rw [kept.cnt, count_eq_iff, kept.total]
  constructor
  · rintro ⟨total, told, all⟩
    rw [told]
    refine ⟨?_, ?_⟩
    · cases found : accepted strings 0 with
      | none =>
          unfold totalOf at told
          rw [found] at told
          cases told
      | some fragment =>
          obtain ⟨most, _, tells⟩ := accepted_total strings fragment found
          rw [told] at tells
          cases tells
          exact Nat.succ_pos most
    · intro index below
      exact (kept.accepted_iff index).mp (all index below)
  · rintro ⟨positive, all⟩
    cases told : totalOf strings with
    | none =>
        rw [told] at positive
        exact absurd positive (Nat.lt_irrefl 0)
    | some total =>
        rw [told] at all
        refine ⟨total, told, ?_⟩
        intro index below
        exact (kept.accepted_iff index).mpr (all index below)

theorem Kept.not_complete (kept : Kept strings priv) (index : Nat)
    (new : priv.resultLen index = 0)
    (below : 0 < priv.resultTotal → index < priv.resultTotal) :
    ¬ Complete strings := by
  intro complete
  obtain ⟨positive, all⟩ := kept.complete_iff.mp complete
  rw [kept.cnt, count_eq_iff] at all
  exact of_decide_eq_true (all index (below positive)) new

theorem Kept.cnt_le (kept : Kept strings priv) :
    priv.resultCnt ≤ priv.resultTotal := by
  rw [kept.cnt]
  exact count_le _ _

theorem Kept.total_zero (kept : Kept strings priv)
    (new : priv.resultLen 0 = 0) : priv.resultTotal = 0 := by
  rw [kept.total]
  unfold totalOf
  rw [kept.new 0 new]
  rfl

theorem Kept.total_le (kept : Kept strings priv) :
    priv.resultTotal ≤ vpDecResultMaxNum := by
  rw [kept.total]
  cases found : accepted strings 0 with
  | none =>
      unfold totalOf
      rw [found]
      exact Nat.zero_le _
  | some fragment =>
      obtain ⟨most, small, told⟩ := accepted_total strings fragment found
      rw [told]
      exact small

end Kept

/-! ### One string -/

/-- What the code takes for granted of a string: its fragment 0 has a payload,
and no new fragment behind the total comes after fragment 0. -/
structure Expected (priv : VpPriv) (data : List Byte) : Prop where
  whole : vpCheck data = some 2 → hex2num (charAt data 0) = some 0 →
    priv.resultLen 0 ≠ 0
  payload : ∀ fragment, fragmentOf data = some fragment →
    fragment.index = 0 → priv.resultLen 0 = 0 → fragment.payload ≠ []
  below : ∀ fragment, fragmentOf data = some fragment →
    fragment.index ≠ 0 → priv.resultLen fragment.index = 0 →
    0 < priv.resultTotal → fragment.index < priv.resultTotal

section Step

variable {strings : List (List Byte)} {priv stored : VpPriv}
  {data : List Byte} {fragment : Fragment}

theorem Kept.congr (kept : Kept strings priv) (more : List (List Byte))
    (same : ∀ index, accepted more index = accepted strings index) :
    Kept more priv := by
  have total : totalOf more = totalOf strings := by
    unfold totalOf
    rw [same]
  exact {
    missing := by
      intro index
      rw [same]
      exact kept.missing index
    held := by
      intro index fragment
      rw [same]
      exact kept.held index fragment
    total := by
      rw [total]
      exact kept.total
    cnt := kept.cnt }

theorem has_store (priv after : VpPriv) (idx len : Nat) (positive : len ≠ 0)
    (place : after.resultLen = Function.update priv.resultLen idx len) :
    after.has = Function.update priv.has idx true := by
  funext index
  unfold VpPriv.has
  rw [place]
  by_cases same : index = idx
  · subst same
    rw [Function.update_self, Function.update_self]
    exact decide_eq_true positive
  · rw [Function.update_of_ne same, Function.update_of_ne same]

theorem Kept.store {after : VpPriv} (kept : Kept strings priv)
    (read : fragmentOf data = some fragment)
    (new : priv.resultLen fragment.index = 0) (nonempty : fragment.payload ≠ [])
    (fits : 0 + fragment.payload.length ≤ vpDecResultMaxLen)
    (len : after.resultLen = Function.update priv.resultLen fragment.index
      fragment.payload.length)
    (result : after.result = Function.update priv.result fragment.index
      ((priv.result fragment.index).store 0 fragment.payload fits))
    (total : after.resultTotal = (totalOf (strings ++ [data])).getD 0)
    (cnt : after.resultCnt = count after.has after.resultTotal) :
    Kept (strings ++ [data]) after := by
  have missing := kept.new fragment.index new
  have accept := accepted_concat_new strings data fragment read missing
  have others := accepted_concat_other strings data fragment read
  exact {
    missing := by
      intro index still
      have apart : index ≠ fragment.index := by
        intro same
        rw [same, accept] at still
        cases still
      rw [others index apart] at still
      rw [len, Function.update_of_ne apart]
      exact kept.missing index still
    held := by
      intro index other found
      rw [len, result]
      by_cases same : index = fragment.index
      · subst same
        rw [accept] at found
        cases found
        rw [Function.update_self, Function.update_self]
        exact ⟨nonempty, rfl, Buffer.take_store _ _ fits⟩
      · rw [others index same] at found
        rw [Function.update_of_ne same, Function.update_of_ne same]
        exact kept.held index other found
    total
    cnt }

theorem vpRecount_eq (priv : VpPriv) (small : priv.resultTotal ≤ vpDecResultMaxNum)
    (none_ : priv.resultCnt = 0) :
    vpRecount priv = count priv.has priv.resultTotal := by
  unfold vpRecount
  rw [none_]
  generalize priv.resultTotal = total at small ⊢
  induction total with
  | zero => rfl
  | succ total ih =>
      have few := count_le priv.has total
      unfold vpDecResultMaxNum at small
      rw [List.range_succ, List.foldl_append, ih (by unfold vpDecResultMaxNum; omega),
        count_succ, List.foldl_cons, List.foldl_nil]
      unfold VpPriv.has at few ⊢
      by_cases kept : priv.resultLen total = 0
      · rw [if_neg (not_not_intro kept), decide_eq_false (not_not_intro kept)]
        rfl
      · rw [if_pos kept, decide_eq_true kept, Nat.mod_eq_of_lt (by omega)]
        rfl

def Answers (strings : List (List Byte)) (data : List Byte) (ret : Int) : Prop :=
  ret = 0 ↔ Complete (strings ++ [data]) ∧ ¬ Complete strings

theorem Kept.answers {after : VpPriv} (kept : Kept (strings ++ [data]) after)
    (before : ¬ Complete strings) :
    Answers strings data (vpAnswer after).2 := by
  unfold Answers vpAnswer
  rw [kept.complete_iff]
  by_cases done : 0 < after.resultTotal ∧ after.resultCnt = after.resultTotal
  · rw [if_pos done]
    exact iff_of_true rfl ⟨done, before⟩
  · rw [if_neg done]
    exact iff_of_false (by simp) (fun both => done both.1)

/-- A string that is as expected never leaves the buffers, and its answer is
right. -/
theorem kept_step (kept : Kept strings priv) (expected : Expected priv data) :
    ∃ after ret, vpProcessResult priv data = some (after, ret) ∧
      Kept (strings ++ [data]) after ∧ Answers strings data ret := by
  cases processed priv data with
  | ignored same known =>
      have accept : ∀ index,
          accepted (strings ++ [data]) index = accepted strings index := by
        intro index
        cases read : fragmentOf data with
        | none => exact accepted_concat_none strings data read index
        | some fragment =>
            obtain ⟨other, found⟩ := kept.known _ (known fragment read)
            exact accepted_concat_old strings data fragment read other found index
      refine ⟨priv, -1, same, kept.congr _ accept, ?_⟩
      unfold Answers
      rw [complete_congr _ _ accept]
      exact iff_of_false (by decide) (fun both => both.2 both.1)
  | torn _ _ check digit new => exact absurd new (expected.whole check digit)
  | zero fragment most stored read index total new store same =>
      have nonempty := expected.payload fragment read index new
      have empty := kept.total_zero new
      have newHere : priv.resultLen fragment.index = 0 := by
        rw [index]
        exact new
      have accept := accepted_concat_new strings data fragment read
        (kept.new _ newHere)
      have told : totalOf (strings ++ [data]) = some (most + 1) := by
        rw [index] at accept
        unfold totalOf
        rw [accept]
        exact total
      obtain ⟨_, small, tells⟩ := fragmentOf_total data fragment read index
      rw [total] at tells
      cases tells
      obtain ⟨fits, place⟩ := vpStore_inv _ stored 0 fragment.payload store
      have uncounted : stored.resultCnt = 0 := by
        rw [place]
        change priv.resultCnt = 0
        rw [kept.cnt, empty]
        rfl
      have counted := vpRecount_eq stored (by rw [place]; exact small) uncounted
      have next : Kept (strings ++ [data])
          { stored with resultCnt := vpRecount stored } := by
        apply kept.store read newHere nonempty fits
        · rw [place, index]
        · rw [place, index]
        · rw [place, told]
          rfl
        · exact counted
      refine ⟨_, _, same, next, next.answers ?_⟩
      apply kept.not_complete 0 new
      exact id
  | other fragment stored read index new store same =>
      have nonempty := fragmentOf_nonempty data fragment read index
      have positive := (List.length_pos_iff.mpr nonempty).ne'
      have below := expected.below fragment read index new
      have before := kept.not_complete fragment.index new below
      obtain ⟨fits, place⟩ := vpStore_inv _ stored _ fragment.payload store
      have told : totalOf (strings ++ [data]) = totalOf strings := by
        unfold totalOf
        rw [accepted_concat_other strings data fragment read 0 (Ne.symm index)]
      have total : stored.resultTotal = (totalOf (strings ++ [data])).getD 0 := by
        rw [place, told]
        exact kept.total
      have has := has_store priv stored fragment.index _ positive (by rw [place])
      have cnt : stored.resultCnt = count priv.has stored.resultTotal := by
        rw [place]
        exact kept.cnt
      have bound := kept.total_le
      have same_total : stored.resultTotal = priv.resultTotal := by rw [place]
      unfold vpDecResultMaxNum at bound
      by_cases known : 0 < stored.resultTotal
      · rw [if_pos known] at same
        rw [same_total] at known
        have few := count_le priv.has stored.resultTotal
        have next : Kept (strings ++ [data])
            { stored with resultCnt := (stored.resultCnt + 1) % 256 } := by
          apply kept.store read new nonempty fits
          · rw [place]
          · rw [place]
          · exact total
          · change (stored.resultCnt + 1) % 256 = count stored.has _
            rw [has, count_update _ _ _ (by rw [same_total]; exact below known)
              (decide_eq_false (not_not_intro new)), cnt]
            exact Nat.mod_eq_of_lt (by omega)
        exact ⟨_, _, same, next, next.answers before⟩
      · rw [if_neg known] at same
        have next : Kept (strings ++ [data]) stored := by
          apply kept.store read new nonempty fits
          · rw [place]
          · rw [place]
          · exact total
          · rw [cnt, Nat.eq_zero_of_not_pos known]
            rfl
        exact ⟨_, _, same, next, next.answers before⟩

end Step

/-! ### The raw result -/

/-- What `wlan_voiceprint_get_raw_result` has to give of these payloads into a
buffer of the length. -/
def rawOf (payloads : List Byte) (len : Int) : RawResult :=
  if len < payloads.length then .overflow else .success payloads

theorem kept_raw {strings : List (List Byte)} {priv : VpPriv} {total : Nat}
    (kept : Kept strings priv) (status : priv.status = .complete)
    (complete : Complete strings) (told : totalOf strings = some total)
    (len : Int) :
    wlanVoiceprintGetRawResult priv len = rawOf (payloads strings total) len := by
  obtain ⟨same, told', all⟩ := complete
  rw [told] at told'
  cases told'
  have resultTotal : priv.resultTotal = total := by
    rw [kept.total, told]
    rfl
  have held : ∀ index ∈ List.range total,
      (priv.result index).cells.take (priv.resultLen index) =
        ((accepted strings index).map Fragment.payload).getD [] ∧
      priv.resultLen index =
        (((accepted strings index).map Fragment.payload).getD []).length := by
    intro index member
    obtain ⟨fragment, found⟩ := Option.isSome_iff_exists.mp
      (all index (List.mem_range.mp member))
    obtain ⟨_, size, cells⟩ := kept.held index fragment found
    rw [found, size]
    exact ⟨cells, rfl⟩
  have pieces : (List.range total).flatMap (fun index =>
      (priv.result index).cells.take (priv.resultLen index)) =
        payloads strings total :=
    List.flatMap_congr fun index member => (held index member).1
  have totalLen : ((List.range total).map priv.resultLen).sum =
      (payloads strings total).length := by
    unfold payloads
    rw [List.length_flatMap]
    congr 1
    exact List.map_congr_left fun index member => (held index member).2
  have nonempty : (payloads strings total).length ≠ 0 := by
    obtain ⟨positive, _⟩ := kept.complete_iff.mp ⟨total, told, all⟩
    rw [resultTotal] at positive
    obtain ⟨fragment, found⟩ := Option.isSome_iff_exists.mp (all 0 positive)
    have payload := (kept.held 0 fragment found).1
    intro empty
    have nothing := List.flatMap_eq_nil_iff.mp (List.length_eq_zero_iff.mp empty) 0
      (List.mem_range.mpr positive)
    rw [found] at nothing
    exact payload nothing
  unfold wlanVoiceprintGetRawResult rawOf
  rw [if_neg (not_not_intro status), resultTotal]
  simp only [totalLen, pieces, if_neg nonempty]

/-! ### Runs -/

/-- What is promised of every state of a run. -/
structure Assembles (run : VpRun) : Prop where
  inside : run.priv.isSome = true
  /-- 0 is returned exactly for the string that makes the fragments complete. -/
  returned : ∀ before last, run.strings = before ++ [last] →
    (run.ret = some 0 ↔ Complete run.strings ∧ ¬ Complete before)
  cnt : ∀ priv, run.priv = some priv → priv.resultCnt ≤ priv.resultTotal
  raw : ∀ priv total, run.priv = some priv → run.ret = some 0 →
    totalOf run.strings = some total → ∀ len,
      wlanVoiceprintGetRawResult priv len = rawOf (payloads run.strings total) len

/-- The next string is as the code takes for granted. -/
def TakesExpected (run : VpRun) (data : List Byte) : Prop :=
  ∀ priv, run.priv = some priv → Expected priv data

instance (priv : VpPriv) (data : List Byte) : Decidable (Expected priv data) :=
  decidable_of_iff
    ((vpCheck data = some 2 → hex2num (charAt data 0) = some 0 →
        priv.resultLen 0 ≠ 0) ∧
      ∀ fragment ∈ fragmentOf data,
        (fragment.index = 0 → priv.resultLen 0 = 0 → fragment.payload ≠ []) ∧
        (fragment.index ≠ 0 → priv.resultLen fragment.index = 0 →
          0 < priv.resultTotal → fragment.index < priv.resultTotal))
    ⟨fun both => {
        whole := both.1
        payload := fun fragment read => (both.2 fragment read).1
        below := fun fragment read => (both.2 fragment read).2 },
      fun expected => ⟨expected.whole, fun fragment read =>
        ⟨expected.payload fragment read, expected.below fragment read⟩⟩⟩

instance (run : VpRun) (data : List Byte) : Decidable (TakesExpected run data) :=
  inferInstanceAs (Decidable (∀ priv ∈ run.priv, Expected priv data))

structure Followed (run : VpRun) (priv : VpPriv) : Prop where
  present : run.priv = some priv
  kept : Kept run.strings priv
  unasked : run.strings = [] → run.ret = none
  returned : ∀ before last, run.strings = before ++ [last] →
    (run.ret = some 0 ↔ Complete run.strings ∧ ¬ Complete before)
  status : run.ret = some 0 → priv.status = .complete

theorem Followed.assembles {run : VpRun} {priv : VpPriv}
    (followed : Followed run priv) : Assembles run := by
  exact {
    inside := by
      rw [followed.present]
      rfl
    returned := followed.returned
    cnt := by
      intro other same
      rw [followed.present] at same
      cases same
      exact followed.kept.cnt_le
    raw := by
      intro other total same done told len
      rw [followed.present] at same
      cases same
      apply kept_raw followed.kept (followed.status done) _ told
      rcases List.eq_nil_or_concat run.strings with none_ | ⟨before, last, split⟩
      · rw [followed.unasked none_] at done
        cases done
      · rw [List.concat_eq_append] at split
        exact ((followed.returned before last split).mp done).1 }

theorem followed_turn {run : VpRun} {priv : VpPriv} (data : List Byte)
    (followed : Followed run priv) (expected : TakesExpected run data) :
    ∃ after, Followed (vpTurn run data) after := by
  obtain ⟨after, ret, same, kept, answers⟩ :=
    kept_step followed.kept (expected priv followed.present)
  have turned : vpTurn run data =
      { priv := some { after with
          status := if ret = 0 then .complete else .normal }
        strings := run.strings ++ [data]
        ret := some ret } := by
    unfold vpTurn
    simp only [followed.present, same]
  rw [turned]
  refine ⟨_, {
    present := rfl
    kept := ⟨kept.missing, kept.held, kept.total, kept.cnt⟩
    unasked := ?_
    returned := ?_
    status := ?_ }⟩
  · intro empty
    exact absurd empty (List.append_ne_nil_of_right_ne_nil _
      (List.cons_ne_nil data []))
  · intro before last split
    obtain ⟨same_before, _⟩ := List.append_inj' split rfl
    rw [← same_before]
    exact Option.some_inj.trans answers
  · intro done
    exact if_pos (Option.some.inj done)

/-- In a run whose strings are all as expected, 0 is returned exactly when the
fragments become complete, and the raw result is their payloads in order. -/
theorem assembles_along (strings : List (List Byte))
    (expected : Along vpTurn TakesExpected vpRunStart strings) :
    Always vpTurn Assembles vpRunStart strings := by
  apply always_imp (fun run => ∃ priv, Followed run priv)
  · rintro run ⟨priv, followed⟩
    exact followed.assembles
  · refine always_of_along (fun run => ∃ priv, Followed run priv) TakesExpected
      ?_ vpRunStart ?_ strings expected
    · rintro run data ⟨priv, followed⟩ takes
      exact followed_turn data followed takes
    · refine ⟨vpPrivZero, {
        present := rfl
        kept := kept_zero
        unasked := fun _ => rfl
        returned := ?_
        status := ?_ }⟩
      · intro before last split
        exact absurd split.symm (List.append_ne_nil_of_right_ne_nil _
          (List.cons_ne_nil last []))
      · intro done
        cases done

/-- Fragment 1 with the payload "B", then fragment 0 of two with "A". -/
theorem twoFragments_assemble :
    Always vpTurn Assembles vpRunStart
      [[0x31#8, 0x42#8, 0x38#8, 0x63#8],
        [0x30#8, 0x30#8, 0x31#8, 0x41#8, 0x32#8, 0x64#8]] := by
  apply assembles_along
  decide

/-- Three runs that go wrong: the only fragment has no payload; after fragment 0
of two fragments, fragment 7 completes the count; fragment 0 ends before its
total. -/
theorem fragments_miscounted :
    ¬ Assembles (run vpTurn vpRunStart
      [[0x30#8, 0x30#8, 0x30#8, 0x36#8, 0x66#8]]) ∧
    ¬ Assembles (run vpTurn vpRunStart
      [[0x30#8, 0x30#8, 0x31#8, 0x41#8, 0x32#8, 0x64#8],
        [0x37#8, 0x42#8, 0x38#8, 0x36#8]]) ∧
    ¬ Assembles (run vpTurn vpRunStart
      [[0x30#8, 0x30#8, 0x39#8, 0x66#8]]) := by
  refine ⟨?_, ?_, ?_⟩
  · intro assembles
    have answer := (assembles.returned [] _ rfl).mpr ⟨⟨1, rfl, by decide⟩, ?_⟩
    · revert answer
      decide
    · rintro ⟨total, told, _⟩
      cases told
  · intro assembles
    have done := (assembles.returned [_] _ rfl).mp (by decide)
    obtain ⟨⟨total, told, all⟩, _⟩ := done
    cases told
    have missing := all 1 (by decide)
    revert missing
    decide
  · intro assembles
    have inside := assembles.inside
    revert inside
    decide

end XR872.VoicePrint
