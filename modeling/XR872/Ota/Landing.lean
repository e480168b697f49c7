/-
Where a download lands.

No erase and no write leaves the slot. While no write fails, the slot holds
what came behind the bootloader. The loop is left with `img_max_size` used up
in two ways, and the status behind it does not tell them apart.
-/

import XR872.Ota.Download

namespace XR872.Ota

open BitView
open Images
open Memories
open Runs

def FlashRange.Holds (range : FlashRange) (flash address : Nat) : Prop :=
  flash = range.flash ∧ range.addr ≤ address ∧ address < range.addr + range.size

def FlashRange.Within (range slot : FlashRange) : Prop :=
  range.flash = slot.flash ∧ slot.addr ≤ range.addr ∧
    range.addr + range.size ≤ slot.addr + slot.size

structure InSlot (slot : FlashRange) (before : FlashMem)
    (touched : List FlashRange) (after : FlashMem) : Prop where
  within : ∀ range ∈ touched, range.Within slot
  outside : ∀ flash address, ¬ slot.Holds flash address →
    after flash address = before flash address

/-- Every byte received is accounted for, every write was done, and the slot
begins with the bytes from behind the bootloader on. -/
structure Landed (iop : ImageOtaParam) (seq : ImageSeq) (stream : List Byte)
    (result : OtaResult) : Prop where
  consumed : result.getSize + result.rest.length = stream.length
  written : result.writeFailed = false
  content : load (result.mem (iop.flash seq)) (iop.addr seq)
    (result.getSize - iop.blSize) =
      (stream.take result.getSize).drop iop.blSize

structure LandsExactly (iop : ImageOtaParam) (seq : ImageSeq)
    (stream : List Byte) (before : FlashMem) (result : OtaResult) : Prop where
  landed : result.status = .ok → Landed iop seq stream result
  inSlot : InSlot (slotRange iop seq) before result.touched result.mem

/-- The write of the piece that uses up `img_max_size` is done, or leaves
sections that are not valid. -/
def FillingWriteHolds (mSize flash : Nat) (seq : ImageSeq)
    (check : CheckSections) (load : OtaLoad) (turn : OtaTurn) : Prop :=
  load.ret = none → load.imgMaxSize ≠ 0 →
    ∀ data eofFlag rest,
      getPiece load.rest (min load.imgMaxSize otaBufSize) turn.get =
        some (data, eofFlag, rest) →
      data.length = load.imgMaxSize →
        let write := halFlashWrite mSize flash load.addr data turn.write load.mem
        write.1 = true ∨ check seq write.2.1 = false

/-! ### Pieces and stores -/

theorem getPiece_some (rest : List Byte) (size : Nat) (answer : OtaAnswer)
    (data after : List Byte) (eofFlag : Bool)
    (got : getPiece rest size answer = some (data, eofFlag, after)) :
    data = rest.take data.length ∧ after = rest.drop data.length ∧
      data.length ≤ size ∧ data.length ≤ rest.length := by
  cases answer with
  | failed => cases got
  | piece count flag =>
      injection got with same
      injection same with isData same
      injection same with _ isRest
      have length : data.length = min (min count size) rest.length := by
        rw [← isData, List.length_take]
      refine ⟨?_, ?_, by omega, by omega⟩
      · rw [length, ← isData]
        exact List.take_eq_take_min
      · rw [length, ← isRest]
        by_cases short : min count size ≤ rest.length
        · rw [Nat.min_eq_left short]
        · rw [List.drop_eq_nil_of_le (by omega),
            List.drop_eq_nil_of_le (by omega)]

theorem storeFlash_same (mem : FlashMem) (flash addr : Nat)
    (data : List Byte) :
    storeFlash mem flash addr data flash = store (mem flash) addr data :=
  Function.update_self ..

theorem storeFlash_outside (mem : FlashMem) (range : FlashRange)
    (data : List Byte) (fits : data.length ≤ range.size) (flash address : Nat)
    (outside : ¬ range.Holds flash address) :
    storeFlash mem range.flash range.addr data flash address =
      mem flash address := by
  unfold storeFlash
  by_cases same : flash = range.flash
  · subst same
    rw [Function.update_self]
    refine store_outside _ _ _ _ ?_
    by_contra inside
    exact outside ⟨rfl, by omega, by omega⟩
  · rw [Function.update_of_ne same]

theorem FlashRange.Within.holds {range slot : FlashRange}
    (within : range.Within slot) {flash address : Nat}
    (inside : range.Holds flash address) : slot.Holds flash address := by
  obtain ⟨sameFlash, front, back⟩ := within
  obtain ⟨onFlash, above, below⟩ := inside
  exact ⟨onFlash.trans sameFlash, by omega, by omega⟩

theorem InSlot.storeFlash {slot : FlashRange} {before after : FlashMem}
    {touched : List FlashRange} (inSlot : InSlot slot before touched after)
    (range : FlashRange) (within : range.Within slot) (data : List Byte)
    (fits : data.length ≤ range.size) :
    InSlot slot before (touched ++ [range])
      (storeFlash after range.flash range.addr data) where
  within := by
    intro other isTouched
    rcases List.mem_append.mp isTouched with earlier | now
    · exact inSlot.within other earlier
    · rw [List.mem_singleton.mp now]
      exact within
  outside := by
    intro flash address outside
    rw [storeFlash_outside after range data fits flash address
      (fun inside => outside (within.holds inside))]
    exact inSlot.outside flash address outside

theorem eraseSlot_inSlot (iop : ImageOtaParam) (env : OtaEnv) (seq : ImageSeq)
    (mem : FlashMem) :
    InSlot (slotRange iop seq) mem [slotRange iop seq]
      (eraseSlot iop env seq mem) := by
  have fresh : InSlot (slotRange iop seq) mem [] mem :=
    ⟨fun _ none => absurd none List.not_mem_nil, fun _ _ _ => rfl⟩
  exact fresh.storeFlash (slotRange iop seq) ⟨rfl, by omega, by omega⟩ _
    (List.length_take_le _ _)

/-- A write that is refused changes nothing; any other stays in its range. -/
theorem halFlashWrite_inSlot (mSize flash addr : Nat) (data : List Byte)
    (answer : FlashAnswer) (slot : FlashRange) (before mem : FlashMem)
    (touched : List FlashRange) (inSlot : InSlot slot before touched mem)
    (within : ({ flash, addr, size := data.length } : FlashRange).Within slot) :
    InSlot slot before
      (touched ++ (halFlashWrite mSize flash addr data answer mem).2.2)
      (halFlashWrite mSize flash addr data answer mem).2.1 := by
  unfold halFlashWrite
  split
  · rw [List.append_nil]
    exact inSlot
  · refine inSlot.storeFlash _ within _ ?_
    split
    · exact Nat.le_refl _
    · exact List.length_take_le _ _

theorem halFlashWrite_done (mSize flash addr : Nat) (data : List Byte)
    (answer : FlashAnswer) (mem : FlashMem)
    (done : (halFlashWrite mSize flash addr data answer mem).1 = true) :
    (halFlashWrite mSize flash addr data answer mem).2.1 =
      storeFlash mem flash addr data := by
  unfold halFlashWrite at done ⊢
  split
  · rename_i refused
    rw [if_pos refused] at done
    cases done
  · rename_i taken
    rw [if_neg taken] at done
    exact congrArg (storeFlash mem flash addr) (if_pos done)

/-! ### One turn -/

section

variable (mSize flash : Nat)

inductive TurnOutcome (load : OtaLoad) (turn : OtaTurn) : OtaLoad → Prop
  | left (isLeft : load.ret ≠ none ∨ load.imgMaxSize = 0) :
      TurnOutcome load turn load
  | refused (room : load.imgMaxSize ≠ 0)
      (got : getPiece load.rest (min load.imgMaxSize otaBufSize) turn.get =
        none) :
      TurnOutcome load turn { load with ret := some .error }
  | failed (data : List Byte) (eofFlag : Bool) (rest : List Byte)
      (runs : load.ret = none) (room : load.imgMaxSize ≠ 0)
      (got : getPiece load.rest (min load.imgMaxSize otaBufSize) turn.get =
        some (data, eofFlag, rest))
      (write : (halFlashWrite mSize flash load.addr data turn.write
        load.mem).1 = false) :
      TurnOutcome load turn {
        rest
        getSize := load.getSize + data.length
        imgMaxSize := load.imgMaxSize - data.length
        addr := load.addr
        mem := (halFlashWrite mSize flash load.addr data turn.write
          load.mem).2.1
        touched := load.touched ++
          (halFlashWrite mSize flash load.addr data turn.write load.mem).2.2
        writeFailed := true
        ret := some .error }
  | written (data : List Byte) (eofFlag : Bool) (rest : List Byte)
      (runs : load.ret = none) (room : load.imgMaxSize ≠ 0)
      (got : getPiece load.rest (min load.imgMaxSize otaBufSize) turn.get =
        some (data, eofFlag, rest))
      (write : (halFlashWrite mSize flash load.addr data turn.write
        load.mem).1 = true) :
      TurnOutcome load turn {
        rest
        getSize := load.getSize + data.length
        imgMaxSize := load.imgMaxSize - data.length
        addr := load.addr + data.length
        mem := (halFlashWrite mSize flash load.addr data turn.write
          load.mem).2.1
        touched := load.touched ++
          (halFlashWrite mSize flash load.addr data turn.write load.mem).2.2
        writeFailed := load.writeFailed
        ret := if eofFlag then some .ok else none }

theorem writeTurn_outcome (load : OtaLoad) (turn : OtaTurn) :
    TurnOutcome mSize flash load turn (writeTurn mSize flash load turn) := by
  unfold writeTurn
  split
  · rename_i stays
    exact .left stays
  · rename_i goes
    obtain ⟨runs, room⟩ := not_or.mp goes
    have runs := Decidable.not_not.mp runs
    split
    · rename_i got
      exact .refused room got
    · rename_i data eofFlag rest got
      cases write : (halFlashWrite mSize flash load.addr data turn.write
          load.mem).1 with
      | false =>
          simp only [write, Bool.not_false, if_true]
          exact .failed data eofFlag rest runs room got write
      | true =>
          simp only [write, Bool.not_true, Bool.false_eq_true, if_false]
          exact .written data eofFlag rest runs room got write

theorem writeTurn_left (load : OtaLoad) (turn : OtaTurn)
    (isLeft : load.ret ≠ none) : writeTurn mSize flash load turn = load :=
  if_pos (.inl isLeft)

theorem run_left (load : OtaLoad) (turns : List OtaTurn)
    (isLeft : load.ret ≠ none) :
    run (writeTurn mSize flash) load turns = load := by
  induction turns with
  | nil => rfl
  | cons turn turns ih =>
      rw [run_cons, writeTurn_left mSize flash load turn isLeft]
      exact ih

end

/-! ### The invariant of the second loop -/

/-- What holds at the loop's front, `stream` being what the url gives and
`before` the flash the download found. -/
structure Loading (iop : ImageOtaParam) (seq : ImageSeq) (stream : List Byte)
    (before : FlashMem) (load : OtaLoad) : Prop where
  received : load.getSize ≤ stream.length
  remains : load.rest = stream.drop load.getSize
  skipped : iop.blSize ≤ load.getSize
  budget : load.imgMaxSize + load.getSize = iop.imgMaxSize + iop.blSize
  failed : load.writeFailed = true → load.ret = some .error
  usedUp : load.ret = some .error → load.imgMaxSize = 0 →
    load.writeFailed = true
  next : load.writeFailed = false →
    load.addr + iop.blSize = iop.addr seq + load.getSize
  content : load.writeFailed = false →
    Memories.load (load.mem (iop.flash seq)) (iop.addr seq)
      (load.getSize - iop.blSize) =
        (stream.take load.getSize).drop iop.blSize
  inSlot : InSlot (slotRange iop seq) before load.touched load.mem

section

variable (iop : ImageOtaParam) (mSize : Nat) (seq : ImageSeq)
  (stream : List Byte) (before : FlashMem)

/-- What the pieces do to the counts, whatever becomes of their write. -/
theorem Loading.piece {state : OtaLoad}
    (loading : Loading iop seq stream before state) (answer : OtaAnswer)
    (data rest : List Byte) (eofFlag : Bool)
    (got : getPiece state.rest (min state.imgMaxSize otaBufSize) answer =
      some (data, eofFlag, rest)) :
    data.length ≤ state.imgMaxSize ∧
      state.getSize + data.length ≤ stream.length ∧
      rest = stream.drop (state.getSize + data.length) ∧
      data = (stream.drop state.getSize).take data.length := by
  obtain ⟨isData, isRest, small, available⟩ := getPiece_some _ _ _ _ _ _ got
  have received := loading.received
  rw [loading.remains] at isData isRest available
  rw [List.length_drop] at available
  refine ⟨by omega, by omega, ?_, isData⟩
  rw [isRest, List.drop_drop]

/-- While the loop runs, no write has failed and there is room for what is left
of `img_max_size`. -/
theorem Loading.running {state : OtaLoad}
    (loading : Loading iop seq stream before state) (runs : state.ret = none) :
    state.writeFailed = false ∧
      state.addr + iop.blSize = iop.addr seq + state.getSize := by
  have fine : state.writeFailed = false := by
    cases failed : state.writeFailed with
    | false => rfl
    | true =>
        rw [loading.failed failed] at runs
        cases runs
  exact ⟨fine, loading.next fine⟩

theorem Loading.extend {state : OtaLoad}
    (loading : Loading iop seq stream before state)
    (fine : state.writeFailed = false) (data : List Byte)
    (isNext : data = (stream.drop state.getSize).take data.length) :
    Memories.load
        (storeFlash state.mem (iop.flash seq) state.addr data (iop.flash seq))
        (iop.addr seq) (state.getSize + data.length - iop.blSize) =
      (stream.take (state.getSize + data.length)).drop iop.blSize := by
  have skipped := loading.skipped
  have next := loading.next fine
  have place : state.addr =
      iop.addr seq + (state.getSize - iop.blSize) := by omega
  rw [storeFlash_same, place,
    show state.getSize + data.length - iop.blSize =
      state.getSize - iop.blSize + data.length from by omega,
    load_store_append, loading.content fine, List.take_add,
    List.drop_append_of_le_length, ← isNext]
  rw [List.length_take]
  have received := loading.received
  omega

theorem TurnOutcome.loading {state next : OtaLoad} {turn : OtaTurn}
    (outcome : TurnOutcome mSize (iop.flash seq) state turn next)
    (loading : Loading iop seq stream before state) :
    Loading iop seq stream before next := by
  have budget := loading.budget
  have skipped := loading.skipped
  cases outcome with
  | left => exact loading
  | refused room got =>
      exact {
        loading with
        failed := fun _ => rfl
        usedUp := fun _ none => absurd none room }
  | failed data eofFlag rest runs room got write =>
      obtain ⟨small, received, remains, _⟩ :=
        loading.piece iop seq stream before _ _ _ _ got
      obtain ⟨fine, place⟩ := loading.running iop seq stream before runs
      exact {
        received
        remains
        skipped := by dsimp only; omega
        budget := by dsimp only; omega
        failed := fun _ => rfl
        usedUp := fun _ _ => rfl
        next := fun isFine => by cases isFine
        content := fun isFine => by cases isFine
        inSlot := halFlashWrite_inSlot mSize _ _ _ _ _ _ _ _ loading.inSlot
          ⟨rfl, by dsimp only [slotRange]; omega,
            by dsimp only [slotRange]; omega⟩ }
  | written data eofFlag rest runs room got write =>
      obtain ⟨small, received, remains, isNext⟩ :=
        loading.piece iop seq stream before _ _ _ _ got
      obtain ⟨fine, place⟩ := loading.running iop seq stream before runs
      have goesOn : (if eofFlag then some OtaStatus.ok else none) ≠
          some .error := by
        cases eofFlag <;> exact nofun
      exact {
        received
        remains
        skipped := by dsimp only; omega
        budget := by dsimp only; omega
        failed := fun failed => by rw [fine] at failed; cases failed
        usedUp := fun error => absurd error goesOn
        next := fun _ => by dsimp only; omega
        content := by
          intro _
          dsimp only
          rw [halFlashWrite_done _ _ _ _ _ _ write]
          exact loading.extend iop seq stream before fine data isNext
        inSlot := halFlashWrite_inSlot mSize _ _ _ _ _ _ _ _ loading.inSlot
          ⟨rfl, by dsimp only [slotRange]; omega,
            by dsimp only [slotRange]; omega⟩ }

theorem run_loading (state : OtaLoad) (turns : List OtaTurn)
    (loading : Loading iop seq stream before state) :
    Loading iop seq stream before
      (run (writeTurn mSize (iop.flash seq)) state turns) :=
  run_invariant (Loading iop seq stream before)
    (fun state turn now =>
      (writeTurn_outcome mSize (iop.flash seq) state turn).loading iop mSize seq
        stream before now)
    state loading turns

end

/-! ### When the filling write holds -/

/-- The loop was left with `img_max_size` used up by a piece whose write
failed, and what it left has valid sections. -/
def FilledBadly (seq : ImageSeq) (check : CheckSections) (load : OtaLoad) :
    Prop :=
  load.writeFailed = true ∧ load.imgMaxSize = 0 ∧ check seq load.mem = true

section

variable (iop : ImageOtaParam) (mSize : Nat) (seq : ImageSeq)
  (check : CheckSections) (stream : List Byte) (before : FlashMem)

theorem writeTurn_filledBadly (state : OtaLoad) (turn : OtaTurn)
    (loading : Loading iop seq stream before state)
    (fine : ¬ FilledBadly seq check state) :
    (¬ FilledBadly seq check (writeTurn mSize (iop.flash seq) state turn)) ↔
      FillingWriteHolds mSize (iop.flash seq) seq check state turn := by
  have outcome := writeTurn_outcome mSize (iop.flash seq) state turn
  generalize writeTurn mSize (iop.flash seq) state turn = next at outcome ⊢
  cases outcome with
  | left isLeft =>
      refine iff_of_true fine ?_
      intro runs room
      rcases isLeft with returned | none
      · exact absurd runs returned
      · exact absurd none room
  | refused room got =>
      refine iff_of_true (fun bad => room bad.2.1) ?_
      intro runs _ data eofFlag rest piece
      rw [got] at piece
      cases piece
  | failed data eofFlag rest runs room got write =>
      constructor
      · intro holds _ _ data' eofFlag' rest' piece fills
        rw [got] at piece
        cases piece
        refine .inr (Bool.eq_false_iff.mpr ?_)
        intro valid
        exact holds ⟨rfl, by dsimp only; omega, valid⟩
      · rintro holds ⟨_, usedUp, valid⟩
        dsimp only at usedUp valid
        have small := (loading.piece iop seq stream before _ _ _ _ got).1
        rcases holds runs room data eofFlag rest got (by omega) with
          done | invalid
        · rw [write] at done
          cases done
        · rw [valid] at invalid
          cases invalid
  | written data eofFlag rest runs room got write =>
      have fine := (loading.running iop seq stream before runs).1
      refine iff_of_true (fun bad => ?_) ?_
      · have failed := bad.1
        dsimp only at failed
        rw [fine] at failed
        cases failed
      · intro _ _ data' eofFlag' rest' piece _
        rw [got] at piece
        cases piece
        exact .inl write

theorem writeTurn_stays_filledBadly (state : OtaLoad) (turn : OtaTurn)
    (bad : FilledBadly seq check state) :
    FilledBadly seq check (writeTurn mSize (iop.flash seq) state turn) := by
  have same : writeTurn mSize (iop.flash seq) state turn = state :=
    if_pos (.inr bad.2.1)
  rw [same]
  exact bad

theorem run_filledBadly (state : OtaLoad) (turns : List OtaTurn)
    (loading : Loading iop seq stream before state)
    (fine : ¬ FilledBadly seq check state) :
    (¬ FilledBadly seq check
        (run (writeTurn mSize (iop.flash seq)) state turns)) ↔
      Along (writeTurn mSize (iop.flash seq))
        (FillingWriteHolds mSize (iop.flash seq) seq check) state turns := by
  rw [← always_iff_along (fun state => ¬ FilledBadly seq check state)
    (FillingWriteHolds mSize (iop.flash seq) seq check)
    (Loading iop seq stream before)
    (fun state turn now _ _ =>
      (writeTurn_outcome mSize (iop.flash seq) state turn).loading iop mSize seq
        stream before now)
    (writeTurn_filledBadly iop mSize seq check stream before)
    state loading fine turns]
  refine (always_iff_run (fun state => ¬ FilledBadly seq check state) ?_ state
    turns).symm
  intro state turn bad fineAgain
  exact fineAgain (writeTurn_stays_filledBadly iop mSize seq check state turn
    (not_not.mp bad))

theorem along_left (state : OtaLoad) (turns : List OtaTurn)
    (isLeft : state.ret ≠ none) :
    Along (writeTurn mSize (iop.flash seq))
      (FillingWriteHolds mSize (iop.flash seq) seq check) state turns := by
  induction turns with
  | nil => trivial
  | cons turn turns ih =>
      refine ⟨fun runs => absurd runs isLeft, ?_⟩
      rw [writeTurn_left mSize _ state turn isLeft]
      exact ih

/-- Behind the loop: an answer `OTA_STATUS_OK` lands exactly if the slot was not
filled by a failing write. -/
theorem finishLoad_landed (state : OtaLoad)
    (loading : Loading iop seq stream before state) :
    ((finishLoad seq check state).status = .ok →
        Landed iop seq stream (finishLoad seq check state)) ↔
      ¬ FilledBadly seq check state := by
  have counted : state.getSize + state.rest.length = stream.length := by
    have received := loading.received
    rw [loading.remains, List.length_drop]
    omega
  constructor
  · rintro lands ⟨failed, usedUp, valid⟩
    have ok : (finishLoad seq check state).status = .ok := by
      unfold finishLoad
      simp only [usedUp, valid, ne_eq, not_true_eq_false, and_false, if_false,
        Bool.not_true, Bool.false_eq_true]
    have written := (lands ok).written
    change state.writeFailed = false at written
    rw [failed] at written
    cases written
  · intro fine ok
    have written : state.writeFailed = false := by
      refine Bool.eq_false_iff.mpr ?_
      intro failed
      refine fine ⟨failed, ?_, ?_⟩
      · by_contra room
        unfold finishLoad at ok
        dsimp only at ok
        rw [if_pos ⟨by rw [loading.failed failed]; exact nofun, room⟩] at ok
        cases ok
      · unfold finishLoad at ok
        dsimp only at ok
        cases valid : check seq state.mem with
        | true => rfl
        | false =>
            rw [valid] at ok
            split at ok <;> cases ok
    exact ⟨counted, written, loading.content written⟩

end

/-! ### The whole download -/

section

variable (iop : ImageOtaParam) (mSize : Nat) (env : OtaEnv) (seq : ImageSeq)
  (getSize : Nat) (mem : FlashMem) (check : CheckSections)

theorem skipBootloader_passed (turns : List OtaTurn) (rest : List Byte)
    (blSize getSize : Nat) (turns' : List OtaTurn) (rest' : List Byte)
    (getSize' : Nat)
    (passed : skipBootloader turns rest blSize getSize =
      (some turns', rest', getSize')) :
    getSize' = getSize + blSize ∧ rest' = rest.drop blSize ∧
      blSize ≤ rest.length := by
  induction turns generalizing rest blSize getSize with
  | nil =>
      cases blSize with
      | zero =>
          cases passed
          exact ⟨rfl, rfl, Nat.zero_le _⟩
      | succ blSize => cases passed
  | cons turn turns ih =>
      cases blSize with
      | zero =>
          cases passed
          exact ⟨rfl, rfl, Nat.zero_le _⟩
      | succ blSize =>
          unfold skipBootloader at passed
          split at passed
          · cases passed
          · rename_i data eofFlag after got
            obtain ⟨_, isRest, small, available⟩ :=
              getPiece_some _ _ _ _ _ _ got
            split at passed
            · cases passed
            · obtain ⟨counted, remains, enough⟩ := ih _ _ _ passed
              rw [isRest, List.length_drop] at enough
              refine ⟨by omega, ?_, by omega⟩
              rw [remains, isRest, List.drop_drop]
              congr 1
              omega

/-- The second loop is not entered, or it is entered with its invariant. -/
theorem prepareLoad_cases :
    (∃ result, prepareLoad iop env seq getSize mem = .inl result ∧
      result.status = .error ∧
      InSlot (slotRange iop seq) mem result.touched result.mem) ∨
    (∃ state turns, prepareLoad iop env seq getSize mem = .inr (state, turns) ∧
      state.ret = some .error ∧ state.imgMaxSize = iop.imgMaxSize ∧
      InSlot (slotRange iop seq) mem state.touched state.mem) ∨
    (∃ state turns, prepareLoad iop env seq getSize mem = .inr (state, turns) ∧
      state.writeFailed = false ∧
      Loading iop seq env.stream mem state) := by
  have erased := eraseSlot_inSlot iop env seq mem
  unfold prepareLoad
  dsimp only
  split
  · exact .inl ⟨_, rfl, rfl, erased⟩
  · split
    · exact .inr (.inl ⟨_, _, rfl, rfl, rfl, erased⟩)
    · split
      · exact .inr (.inl ⟨_, _, rfl, rfl, rfl, erased⟩)
      · rename_i turns rest getSize' passed
        obtain ⟨counted, remains, enough⟩ :=
          skipBootloader_passed _ _ _ _ _ _ _ passed
        rw [Nat.zero_add] at counted
        subst counted
        cases env.flashOpen with
        | false => exact .inr (.inl ⟨_, _, rfl, rfl, rfl, erased⟩)
        | true =>
            refine .inr (.inr ⟨_, _, rfl, rfl, ?_⟩)
            exact {
              received := enough
              remains
              skipped := Nat.le_refl _
              budget := rfl
              failed := fun failed => by cases failed
              usedUp := fun error => by cases error
              next := fun _ => rfl
              content := by
                intro _
                dsimp only
                rw [Nat.sub_self, load_zero, List.drop_eq_nil_of_le]
                exact List.length_take_le _ _
              inSlot := erased }

/-- A download that does not get to the second loop fails. Any other goes
through it from its invariant on. -/
theorem otaUpdateImageProcess_cases (sized : 0 < iop.imgMaxSize) :
    ((otaUpdateImageProcess iop mSize env seq getSize mem check).status =
        .error ∧
      InSlot (slotRange iop seq) mem
        (otaUpdateImageProcess iop mSize env seq getSize mem check).touched
        (otaUpdateImageProcess iop mSize env seq getSize mem check).mem ∧
      ∀ state turns, prepareLoad iop env seq getSize mem =
        .inr (state, turns) → state.ret ≠ none) ∨
    ∃ state turns, prepareLoad iop env seq getSize mem = .inr (state, turns) ∧
      otaUpdateImageProcess iop mSize env seq getSize mem check =
        finishLoad seq check
          (run (writeTurn mSize (iop.flash seq)) state turns) ∧
      state.writeFailed = false ∧ Loading iop seq env.stream mem state := by
  unfold otaUpdateImageProcess
  rcases prepareLoad_cases iop env seq getSize mem with
    ⟨result, prepared, error, inSlot⟩ |
    ⟨state, turns, prepared, error, budget, inSlot⟩ |
    ⟨state, turns, prepared, written, loading⟩
  · rw [prepared]
    exact .inl ⟨error, inSlot, fun state turns => nofun⟩
  · have isLeft : state.ret ≠ none := by
      rw [error]
      exact nofun
    rw [prepared]
    dsimp only
    rw [run_left mSize _ state turns isLeft]
    refine .inl ⟨?_, inSlot, ?_⟩
    · unfold finishLoad
      dsimp only
      rw [error, budget, if_pos ⟨nofun, by omega⟩]
    · rintro state' turns' same
      cases same
      exact isLeft
  · rw [prepared]
    exact .inr ⟨state, turns, rfl, rfl, written, loading⟩

theorem otaUpdateImageProcess_inSlot (sized : 0 < iop.imgMaxSize) :
    InSlot (slotRange iop seq) mem
      (otaUpdateImageProcess iop mSize env seq getSize mem check).touched
      (otaUpdateImageProcess iop mSize env seq getSize mem check).mem := by
  rcases otaUpdateImageProcess_cases iop mSize env seq getSize mem check
    sized with ⟨_, inSlot, _⟩ | ⟨state, turns, _, same, _, loading⟩
  · exact inSlot
  · rw [same]
    exact (run_loading iop mSize seq env.stream mem state turns loading).inSlot

/-- A success has received the bootloader, no more than fits in the slot behind
it, and leaves valid sections. -/
theorem otaUpdateImageProcess_ok (sized : 0 < iop.imgMaxSize)
    (ok : (otaUpdateImageProcess iop mSize env seq getSize mem
      check).status = .ok) :
    iop.blSize ≤
        (otaUpdateImageProcess iop mSize env seq getSize mem check).getSize ∧
      (otaUpdateImageProcess iop mSize env seq getSize mem check).getSize ≤
        iop.blSize + iop.imgMaxSize ∧
      check seq
        (otaUpdateImageProcess iop mSize env seq getSize mem check).mem =
          true := by
  rcases otaUpdateImageProcess_cases iop mSize env seq getSize mem check
    sized with ⟨error, _, _⟩ | ⟨state, turns, _, same, _, loading⟩
  · rw [error] at ok
    cases ok
  · have ends := run_loading iop mSize seq env.stream mem state turns loading
    have skipped := ends.skipped
    have budget := ends.budget
    rw [same] at ok ⊢
    refine ⟨skipped, ?_, ?_⟩
    · change OtaLoad.getSize _ ≤ _
      omega
    · unfold finishLoad at ok
      dsimp only at ok
      split at ok
      · cases ok
      · split at ok
        · cases ok
        · rename_i valid
          rw [Bool.not_eq_true, Bool.not_eq_false'] at valid
          exact valid

/-- No piece that fills the slot meets a write that fails and leaves valid
sections. -/
def FillsWell : Prop :=
  ∀ state turns, prepareLoad iop env seq getSize mem = .inr (state, turns) →
    Along (writeTurn mSize (iop.flash seq))
      (FillingWriteHolds mSize (iop.flash seq) seq check) state turns

theorem landsExactly_iff (sized : 0 < iop.imgMaxSize) :
    LandsExactly iop seq env.stream mem
        (otaUpdateImageProcess iop mSize env seq getSize mem check) ↔
      FillsWell iop mSize env seq getSize mem check := by
  rcases otaUpdateImageProcess_cases iop mSize env seq getSize mem check
    sized with ⟨error, inSlot, isLeft⟩ |
      ⟨state, turns, prepared, same, written, loading⟩
  · refine iff_of_true ⟨fun ok => ?_, inSlot⟩ ?_
    · rw [error] at ok
      cases ok
    · intro state turns prepared
      exact along_left iop mSize seq check state turns
        (isLeft state turns prepared)
  · have fine : ¬ FilledBadly seq check state := by
      rintro ⟨failed, _⟩
      rw [written] at failed
      cases failed
    have ends := run_loading iop mSize seq env.stream mem state turns loading
    have landed := finishLoad_landed iop seq check env.stream mem _ ends
    have filled := run_filledBadly iop mSize seq check env.stream mem state turns
      loading fine
    rw [same]
    constructor
    · rintro lands state' turns' prepared'
      rw [prepared] at prepared'
      cases prepared'
      exact filled.mp (landed.mp lands.landed)
    · intro well
      exact ⟨landed.mpr (filled.mpr (well state turns prepared)), ends.inSlot⟩

end

/-- A bootloader of one byte and slots of two. -/
def twoByteSlots : ImageOtaParam where
  imgMaxSize := 2
  blSize := 1
  runningSeq := 0
  flash := fun _ => 0
  addr := fun seq => 4 + 4 * seq.toNat
  sized := by decide
  placed := by
    intro seq
    have small := seq.isLt
    omega

/-- A stream that fills the slot behind the bootloader, in two pieces. -/
def twoPieces (write : FlashAnswer) : OtaEnv where
  stream := [1, 2, 3]
  erase := { done := true, left := [255, 255] }
  malloc := true
  init := .ok
  flashOpen := true
  turns := [
    { get := .piece 1 false, write },
    { get := .piece 2 false, write }]

theorem filled_landsExactly :
    LandsExactly twoByteSlots 1 [1, 2, 3] (fun _ _ => 0)
      (otaUpdateImageProcess twoByteSlots 16
        (twoPieces { done := true, left := [] }) 1 0 (fun _ _ => 0)
        (fun _ _ => true)) := by
  refine (landsExactly_iff twoByteSlots 16
    (twoPieces { done := true, left := [] }) 1 0 (fun _ _ => 0)
    (fun _ _ => true) (by decide)).mpr ?_
  rintro state turns same
  cases same
  refine ⟨fun _ _ data eofFlag rest got fills => ?_, trivial⟩
  cases got
  exact .inl rfl

/-- The write of the last piece fails, and the answer is `OTA_STATUS_OK`. -/
theorem lastWriteFailed_ok :
    0 < twoByteSlots.imgMaxSize ∧
      ¬ LandsExactly twoByteSlots 1 [1, 2, 3] (fun _ _ => 0)
        (otaUpdateImageProcess twoByteSlots 16
          (twoPieces { done := false, left := [2] }) 1 0 (fun _ _ => 0)
          (fun _ _ => true)) := by
  refine ⟨by decide, fun lands => ?_⟩
  have written := (lands.landed rfl).written
  cases written

end XR872.Ota
