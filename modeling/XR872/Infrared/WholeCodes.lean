/-
Codes that were received whole.

The loop over the bits ends with the buffer, wherever it is, and returns what it
has collected. Behind a leader the runs are pairs of a mark and a space, and a
space is over when the next mark begins; lengths are counted in 32 bits.
-/

import XR872.Infrared.RoundTrip

namespace XR872.Infrared

open BitView
open RunLengths

section

variable (rx : IrRx)

/-- What follows the first mark that is long enough for a leader, of which the
front has been counted. -/
def behindLead1 : BitVec 32 → List (Bool × Nat) → List (Bool × Nat)
  | _, [] => []
  | front, (true, mark) :: runs =>
      if rx.l1Min < front + BitVec.ofNat 32 mark then runs
      else behindLead1 0 runs
  | _, (false, _) :: runs => behindLead1 0 runs

def behindLead0 : List (Bool × Nat) → List (Bool × Nat)
  | [] => []
  | (true, _) :: runs => behindLead0 runs
  | (false, space) :: runs =>
      if rx.l0Min < BitVec.ofNat 32 space then runs else behindLead0 runs

def behindLeader (runs : List (Bool × Nat)) : List (Bool × Nat) :=
  behindLead0 rx (behindLead1 rx (rx.activeDelay >>> 1) runs)

end

def pairRuns (pairs : List (Nat × Nat)) : List (Bool × Nat) :=
  pairs.flatMap fun pair => [(true, pair.1), (false, pair.2)]

section

variable (rx : IrRx)

def WithinLimits (pair : Nat × Nat) : Prop :=
  ¬ rx.pmax < BitVec.ofNat 32 pair.1 ∧ ¬ rx.dmax < BitVec.ofNat 32 pair.2

def bitOf (pair : Nat × Nat) : Bool :=
  decide (rx.dmid < BitVec.ofNat 32 pair.2)

/-- Behind the leader there are 32 pairs within the limits, and the code is
their bits. -/
def WholeCode (runs : List (Bool × Nat)) (code : BitVec 32) : Prop :=
  ∃ pairs mark more,
    behindLeader rx runs = pairRuns pairs ++ (true, mark) :: more ∧
      pairs.length = 32 ∧ (∀ pair ∈ pairs, WithinLimits rx pair) ∧
      ∀ i < 32, code.getLsbD i = (pairs.map (bitOf rx)).getD i false

def Unfinished (runs : List (Bool × Nat)) : Prop :=
  (∃ mark, runs = [(true, mark)]) ∨
    ∃ mark space, runs = [(true, mark), (false, space)] ∧
      ¬ rx.pmax < BitVec.ofNat 32 mark

/-- Behind the leader the runs end within the limits before there are 32 pairs,
and not all that there are stand for 0. -/
def CutShort (runs : List (Bool × Nat)) : Prop :=
  ∃ pairs rest, behindLeader rx runs = pairRuns pairs ++ rest ∧
    pairs.length < 32 ∧ (∀ pair ∈ pairs, WithinLimits rx pair) ∧
    Unfinished rx rest ∧ ∃ pair ∈ pairs, bitOf rx pair = true

end

/-- No code is partial, and the code is that of the runs. -/
structure CodePromise (clock : IrClock) (buf : List Byte) : Prop where
  whole : irrxNecPacketDeCode clock buf ≠ 0 →
    irrxNecPacketDeCode clock buf ≠ -1 →
    WholeCode (irRx clock) (runs (items buf)) (irrxNecPacketDeCode clock buf)
  recut : ∀ other, runs (items other) = runs (items buf) →
    irrxNecPacketDeCode clock other = irrxNecPacketDeCode clock buf

/-! ### Behind the leader -/

section

variable (rx : IrRx)

def Alternate (runs : List (Bool × Nat)) : Prop :=
  runs.IsChain fun left right => left.1 ≠ right.1

theorem Alternate.tail {run : Bool × Nat} {runs : List (Bool × Nat)}
    (alternate : Alternate (run :: runs)) : Alternate runs :=
  List.IsChain.tail alternate

theorem Alternate.level {level next : Bool} {time more : Nat}
    {runs : List (Bool × Nat)}
    (alternate : Alternate ((level, time) :: (next, more) :: runs)) :
    next = !level := by
  have differ := (List.isChain_cons_cons.mp alternate).1
  cases level <;> cases next <;> first | rfl | exact absurd rfl differ

theorem alternate_behindLead0 (runs : List (Bool × Nat))
    (alternate : Alternate runs) : Alternate (behindLead0 rx runs) := by
  induction runs with
  | nil => exact alternate
  | cons run runs ih =>
      obtain ⟨level, time⟩ := run
      cases level with
      | true => exact ih alternate.tail
      | false =>
          rw [behindLead0]
          split
          · exact alternate.tail
          · exact ih alternate.tail

theorem alternate_behindLead1 (front : BitVec 32) (runs : List (Bool × Nat))
    (alternate : Alternate runs) : Alternate (behindLead1 rx front runs) := by
  induction runs generalizing front with
  | nil => exact alternate
  | cons run runs ih =>
      obtain ⟨level, time⟩ := run
      cases level with
      | true =>
          rw [behindLead1]
          split
          · exact alternate.tail
          · exact ih 0 alternate.tail
      | false => exact ih 0 alternate.tail

theorem mark_behindLead0 (runs : List (Bool × Nat))
    (alternate : Alternate runs) (level : Bool) (time : Nat)
    (more : List (Bool × Nat))
    (found : behindLead0 rx runs = (level, time) :: more) : level = true := by
  induction runs with
  | nil => cases found
  | cons run runs ih =>
      obtain ⟨first, length⟩ := run
      cases first with
      | true => exact ih alternate.tail found
      | false =>
          rw [behindLead0] at found
          split at found
          · rw [found] at alternate
            exact alternate.level
          · exact ih alternate.tail found

theorem zero_counted (count : BitVec 32) : 0 + count = count :=
  BitVec.zero_add _

def codeBehind (runs : List (Bool × Nat)) : Option (BitVec 32) :=
  match runs with
  | [] => none
  | _ => (takeAll (necStep rx) (.pulse 0 0 0) runs).code

theorem codeBehind_some {runs : List (Bool × Nat)} (some : runs ≠ []) :
    codeBehind rx runs =
      (takeAll (necStep rx) (.pulse 0 0 0) runs).code := by
  cases runs with
  | nil => exact absurd rfl some
  | cons run runs => rfl

theorem codeBehind_mark (mark : Nat) (runs : List (Bool × Nat)) :
    codeBehind rx ((true, mark) :: runs) =
      (takeAll (necStep rx) (.pulse (BitVec.ofNat 32 mark) 0 0) runs).code := by
  change (takeAll (necStep rx) (.pulse (0 + BitVec.ofNat 32 mark) 0 0)
    runs).code = _
  rw [zero_counted]

theorem takeAll_lead0 (runs : List (Bool × Nat)) :
    (Alternate runs → (takeAll (necStep rx) (.lead0 0) runs).code =
      codeBehind rx (behindLead0 rx runs)) ∧
    ∀ space, Alternate ((false, space) :: runs) →
      (takeAll (necStep rx) (.lead0 (BitVec.ofNat 32 space)) runs).code =
        codeBehind rx (behindLead0 rx ((false, space) :: runs)) := by
  have none : ¬ rx.l0Min < 0 := BitVec.not_lt_zero
  induction runs with
  | nil =>
      refine ⟨fun _ => rfl, fun space _ => ?_⟩
      rw [behindLead0]
      split <;> rfl
  | cons run runs ih =>
      obtain ⟨level, time⟩ := run
      cases level with
      | true =>
          refine ⟨fun alternate => ?_, fun space alternate => ?_⟩
          · have short : necStep rx (.lead0 0) true time = .lead0 0 :=
              if_neg (t := NecState.pulse (BitVec.ofNat 32 time) 0 0) none
            rw [takeAll_cons, behindLead0, ← ih.1 alternate.tail, short]
          · rw [takeAll_cons, behindLead0]
            change (takeAll (necStep rx)
              (if rx.l0Min < BitVec.ofNat 32 space then _ else _ : NecState)
                runs).code = _
            by_cases long : rx.l0Min < BitVec.ofNat 32 space
            · rw [if_pos long, if_pos long, codeBehind_mark]
            · rw [if_neg long, if_neg long, behindLead0]
              exact ih.1 alternate.tail.tail
      | false =>
          refine ⟨fun alternate => ?_, fun space alternate => ?_⟩
          · rw [takeAll_cons, ← ih.2 time alternate]
            change (takeAll (necStep rx) (.lead0 (0 + BitVec.ofNat 32 time))
              runs).code = _
            rw [zero_counted]
          · cases alternate.level

theorem takeAll_lead1 (runs : List (Bool × Nat)) :
    (∀ front, ¬ rx.l1Min < front → Alternate runs →
      (takeAll (necStep rx) (.lead1 front) runs).code =
        codeBehind rx (behindLead0 rx (behindLead1 rx front runs))) ∧
    ∀ mark len, Alternate ((true, mark) :: runs) →
      (takeAll (necStep rx) (.lead1 len) runs).code =
        codeBehind rx (behindLead0 rx
          (if rx.l1Min < len then runs else behindLead1 rx 0 runs)) := by
  have none : ¬ rx.l1Min < 0 := BitVec.not_lt_zero
  induction runs with
  | nil =>
      refine ⟨fun front _ _ => rfl, fun mark len _ => ?_⟩
      split <;> rfl
  | cons run runs ih =>
      obtain ⟨level, time⟩ := run
      cases level with
      | true =>
          refine ⟨fun front _ alternate => ?_, fun mark len alternate => ?_⟩
          · rw [takeAll_cons, behindLead1]
            exact ih.2 time (front + BitVec.ofNat 32 time) alternate
          · cases alternate.level
      | false =>
          refine ⟨fun front short alternate => ?_, fun mark len alternate => ?_⟩
          · rw [takeAll_cons, behindLead1, ← ih.1 0 none alternate.tail]
            change (takeAll (necStep rx)
              (if rx.l1Min < front then _ else _ : NecState) runs).code = _
            rw [if_neg short]
          · rw [takeAll_cons]
            change (takeAll (necStep rx)
              (if rx.l1Min < len then _ else _ : NecState) runs).code = _
            by_cases long : rx.l1Min < len
            · rw [if_pos long, if_pos long]
              exact (takeAll_lead0 rx runs).2 time alternate.tail
            · rw [if_neg long, if_neg long, behindLead1]
              exact ih.1 0 none alternate.tail.tail

/-! ### Bits -/

theorem takeAll_pair (pair : Nat × Nat) (within : WithinLimits rx pair)
    (bitCnt : Nat) (code : BitVec 32) (mark : Nat) (runs : List (Bool × Nat)) :
    takeAll (necStep rx) (.pulse 0 bitCnt code)
        ((true, pair.1) :: (false, pair.2) :: (true, mark) :: runs) =
      if bitCnt + 1 = 32 then .decoded (collect [bitOf rx pair] bitCnt code)
      else takeAll (necStep rx)
        (.pulse 0 (bitCnt + 1) (collect [bitOf rx pair] bitCnt code))
        ((true, mark) :: runs) := by
  rw [takeAll_cons, takeAll_cons, takeAll_cons]
  change takeAll _ (necStep rx (necStep rx
    (.pulse (0 + BitVec.ofNat 32 pair.1) bitCnt code) false pair.2) true mark)
      runs = _
  rw [zero_counted]
  change takeAll _ (necStep rx
    (if rx.pmax < BitVec.ofNat 32 pair.1 then _ else _ : NecState) true mark)
      runs = _
  rw [if_neg within.1]
  change takeAll _
    (if rx.dmax < BitVec.ofNat 32 pair.2 then _ else _ : NecState) runs = _
  rw [if_neg within.2]
  have bit : (if rx.dmid < BitVec.ofNat 32 pair.2 then
      code ||| ((1 : BitVec 32) <<< bitCnt) else code) =
        collect [bitOf rx pair] bitCnt code := by
    unfold bitOf collect collect
    by_cases long : rx.dmid < BitVec.ofNat 32 pair.2
    · rw [if_pos long, decide_eq_true long, if_pos rfl]
    · rw [if_neg long, decide_eq_false long, if_neg Bool.false_ne_true]
  rw [bit]
  by_cases last : bitCnt + 1 = 32
  · rw [if_pos last, if_pos last, takeAll_decoded]
  · rw [if_neg last, if_neg last, takeAll_cons]
    change _ = takeAll (necStep rx)
      (NecState.pulse (0 + BitVec.ofNat 32 mark) _ _) runs
    rw [zero_counted]

theorem takeAll_failing (pair : Nat × Nat) (beyond : ¬ WithinLimits rx pair)
    (bitCnt : Nat) (code : BitVec 32) (mark : Nat) (runs : List (Bool × Nat)) :
    takeAll (necStep rx) (.pulse 0 bitCnt code)
        ((true, pair.1) :: (false, pair.2) :: (true, mark) :: runs) =
      .failed := by
  rw [takeAll_cons, takeAll_cons, takeAll_cons]
  change takeAll _ (necStep rx (necStep rx
    (.pulse (0 + BitVec.ofNat 32 pair.1) bitCnt code) false pair.2) true mark)
      runs = _
  rw [zero_counted]
  change takeAll _ (necStep rx
    (if rx.pmax < BitVec.ofNat 32 pair.1 then _ else _ : NecState) true mark)
      runs = _
  by_cases long : rx.pmax < BitVec.ofNat 32 pair.1
  · rw [if_pos long]
    exact takeAll_failed rx runs
  · rw [if_neg long]
    change takeAll _
      (if rx.dmax < BitVec.ofNat 32 pair.2 then _ else _ : NecState) runs = _
    rw [if_pos (by_contra fun short => beyond ⟨long, short⟩)]
    exact takeAll_failed rx runs

theorem takeAll_unfinished (rest : List (Bool × Nat))
    (unfinished : Unfinished rx rest) (bitCnt : Nat) (code : BitVec 32) :
    (takeAll (necStep rx) (.pulse 0 bitCnt code) rest).code = some code := by
  rcases unfinished with ⟨mark, rfl⟩ | ⟨mark, space, rfl, short⟩
  · rfl
  · rw [takeAll_cons, takeAll_cons, takeAll_nil]
    change (necStep rx (.pulse (0 + BitVec.ofNat 32 mark) bitCnt code) false
      space).code = _
    rw [zero_counted]
    change (if rx.pmax < BitVec.ofNat 32 mark then _ else _ : NecState).code = _
    rw [if_neg short]
    rfl

theorem collect_cons (bit : Bool) (bits : List Bool) (bitCnt : Nat)
    (code : BitVec 32) :
    collect (bit :: bits) bitCnt code =
      collect bits (bitCnt + 1) (collect [bit] bitCnt code) := rfl

theorem takeAll_cutShort (pairs : List (Nat × Nat)) (rest : List (Bool × Nat))
    (bitCnt : Nat) (code : BitVec 32) (few : pairs.length < 32 - bitCnt)
    (within : ∀ pair ∈ pairs, WithinLimits rx pair)
    (unfinished : Unfinished rx rest) :
    (takeAll (necStep rx) (.pulse 0 bitCnt code)
      (pairRuns pairs ++ rest)).code =
        some (collect (pairs.map (bitOf rx)) bitCnt code) := by
  induction pairs generalizing bitCnt code with
  | nil => exact takeAll_unfinished rx rest unfinished bitCnt code
  | cons pair pairs ih =>
      have next := ih (bitCnt + 1) (collect [bitOf rx pair] bitCnt code)
        (by rw [List.length_cons] at few; omega)
        (fun other there => within other (List.mem_cons_of_mem _ there))
      have marked : ∃ mark runs, pairRuns pairs ++ rest =
          (true, mark) :: runs := by
        cases pairs with
        | cons second pairs => exact ⟨_, _, rfl⟩
        | nil =>
            rcases unfinished with ⟨mark, rfl⟩ | ⟨mark, space, rfl, _⟩
            · exact ⟨_, _, rfl⟩
            · exact ⟨_, _, rfl⟩
      obtain ⟨mark, runs, same⟩ := marked
      rw [List.map_cons, collect_cons, ← next]
      have first : pairRuns (pair :: pairs) ++ rest =
          (true, pair.1) :: (false, pair.2) :: (true, mark) :: runs := by
        rw [← same]
        rfl
      rw [first, takeAll_pair rx pair (within pair List.mem_cons_self),
        if_neg (by rw [List.length_cons] at few; omega), same]

theorem bits_end (bitCnt : Nat) (code : BitVec 32) (room : bitCnt < 32) :
    ∀ (mark : Nat) (runs : List (Bool × Nat)), Alternate ((true, mark) :: runs) →
      (takeAll (necStep rx) (.pulse 0 bitCnt code)
          ((true, mark) :: runs)).code = none ∨
        (∃ pairs last more,
          (true, mark) :: runs = pairRuns pairs ++ (true, last) :: more ∧
            bitCnt + pairs.length = 32 ∧
            (∀ pair ∈ pairs, WithinLimits rx pair) ∧
            (takeAll (necStep rx) (.pulse 0 bitCnt code)
              ((true, mark) :: runs)).code =
                some (collect (pairs.map (bitOf rx)) bitCnt code)) ∨
        ∃ pairs rest, (true, mark) :: runs = pairRuns pairs ++ rest ∧
          pairs.length < 32 - bitCnt ∧
          (∀ pair ∈ pairs, WithinLimits rx pair) ∧ Unfinished rx rest
  | mark, [], _ =>
      .inr (.inr ⟨[], _, rfl, Nat.sub_pos_of_lt room,
        fun _ there => absurd there List.not_mem_nil, .inl ⟨mark, rfl⟩⟩)
  | mark, [(level, space)], alternate => by
      obtain rfl : level = false := alternate.level
      by_cases long : rx.pmax < BitVec.ofNat 32 mark
      · refine .inl ?_
        rw [takeAll_cons, takeAll_cons, takeAll_nil]
        change (necStep rx (.pulse (0 + BitVec.ofNat 32 mark) bitCnt code)
          false space).code = _
        rw [zero_counted]
        change (if rx.pmax < BitVec.ofNat 32 mark then _ else _ :
          NecState).code = _
        rw [if_pos long]
        rfl
      · exact .inr (.inr ⟨[], _, rfl, Nat.sub_pos_of_lt room,
          fun _ there => absurd there List.not_mem_nil,
          .inr ⟨mark, space, rfl, long⟩⟩)
  | mark, (level, space) :: (third, next) :: runs, alternate => by
      obtain rfl : level = false := alternate.level
      obtain rfl : third = true := alternate.tail.level
      by_cases within : WithinLimits rx (mark, space)
      · have pairBit := takeAll_pair rx (mark, space) within bitCnt code next runs
        by_cases last : bitCnt + 1 = 32
        · refine .inr (.inl ⟨[(mark, space)], next, runs, rfl, last,
            List.forall_mem_singleton.mpr within, ?_⟩)
          rw [pairBit, if_pos last]
          rfl
        · rw [if_neg last] at pairBit
          have later := bits_end (bitCnt + 1)
            (collect [bitOf rx (mark, space)] bitCnt code) (by omega) next runs
            alternate.tail.tail
          rw [pairBit]
          rcases later with failed | ⟨pairs, lastMark, more, split, all, each, value⟩ |
              ⟨pairs, rest, split, few, each, unfinished⟩
          · exact .inl failed
          · refine .inr (.inl ⟨(mark, space) :: pairs, lastMark, more, ?_, ?_,
              List.forall_mem_cons.mpr ⟨within, each⟩, value⟩)
            · rw [split]
              rfl
            · rw [List.length_cons]
              omega
          · refine .inr (.inr ⟨(mark, space) :: pairs, rest, ?_, ?_,
              List.forall_mem_cons.mpr ⟨within, each⟩, unfinished⟩)
            · rw [split]
              rfl
            · rw [List.length_cons]
              omega
      · refine .inl ?_
        rw [takeAll_failing rx (mark, space) within]
        rfl
theorem leader_behind (runs : List (Bool × Nat)) (alternate : Alternate runs) :
    Alternate (behindLeader rx runs) ∧
      (behindLeader rx runs = [] ∨
        ∃ mark more, behindLeader rx runs = (true, mark) :: more) := by
  have inner := alternate_behindLead1 rx (rx.activeDelay >>> 1) runs alternate
  refine ⟨alternate_behindLead0 rx _ inner, ?_⟩
  cases behind : behindLeader rx runs with
  | nil => exact .inl rfl
  | cons run more =>
      obtain ⟨level, mark⟩ := run
      obtain rfl := mark_behindLead0 rx _ inner level mark more behind
      exact .inr ⟨mark, more, rfl⟩

end

theorem pairRuns_length (pairs : List (Nat × Nat)) :
    (pairRuns pairs).length = 2 * pairs.length := by
  induction pairs with
  | nil => rfl
  | cons pair pairs ih =>
      change (pairRuns pairs).length + 1 + 1 = _
      rw [ih, List.length_cons]
      omega

theorem Unfinished.short {rx : IrRx} {rest : List (Bool × Nat)}
    (unfinished : Unfinished rx rest) : rest.length ≤ 2 := by
  rcases unfinished with ⟨mark, rfl⟩ | ⟨mark, space, rfl, _⟩
  · exact Nat.le_succ 1
  · exact Nat.le_refl 2

theorem Unfinished.some {rx : IrRx} {rest : List (Bool × Nat)}
    (unfinished : Unfinished rx rest) : rest ≠ [] := by
  rcases unfinished with ⟨mark, rfl⟩ | ⟨mark, space, rfl, _⟩
  · exact List.cons_ne_nil _ _
  · exact List.cons_ne_nil _ _

theorem collect_zeros (bits : List Bool) (zeros : ∀ bit ∈ bits, bit = false)
    (bitCnt : Nat) (code : BitVec 32) : collect bits bitCnt code = code := by
  induction bits generalizing bitCnt with
  | nil => rfl
  | cons bit bits ih =>
      rw [collect, if_neg (by
        rw [zeros bit List.mem_cons_self]
        exact Bool.false_ne_true)]
      exact ih (fun other there => zeros other (List.mem_cons_of_mem _ there)) _

theorem CutShort.not_whole {rx : IrRx} {runs : List (Bool × Nat)}
    (cut : CutShort rx runs) (code : BitVec 32) : ¬ WholeCode rx runs code := by
  obtain ⟨few, rest, cutHere, short, _, unfinished, _⟩ := cut
  rintro ⟨pairs, mark, more, split, all, _⟩
  have length := congrArg List.length (cutHere.symm.trans split)
  rw [List.length_append, List.length_append, pairRuns_length, pairRuns_length,
    all, List.length_cons] at length
  have tail := unfinished.short
  omega

theorem collect_bit (bits : List Bool) (i : Nat) (within : i < 32) :
    (collect bits 0 0).getLsbD i = bits.getD i false := by
  rw [getLsbD_collect bits 0 0 i within]
  simp

section

variable (clock : IrClock) (buf : List Byte)

theorem irrxNecPacketDeCode_behind :
    irrxNecPacketDeCode clock buf =
      (codeBehind (irRx clock)
        (behindLeader (irRx clock) (runs (items buf)))).getD (-1) := by
  have front : ¬ (irRx clock).l1Min < (irRx clock).activeDelay >>> 1 := by
    cases clock <;> decide
  rw [irrxNecPacketDeCode_eq, ← takeAll_runs (necStep_additive _)]
  exact congrArg (Option.getD · (-1))
    ((takeAll_lead1 (irRx clock) (runs (items buf))).1 _ front
      (runs_alternate (items buf)))

variable {clock buf}

theorem CutShort.partial_code
    (cut : CutShort (irRx clock) (runs (items buf))) :
    irrxNecPacketDeCode clock buf ≠ 0 ∧ irrxNecPacketDeCode clock buf ≠ -1 := by
  obtain ⟨pairs, rest, split, short, within, unfinished, one⟩ := cut
  have value : irrxNecPacketDeCode clock buf =
      collect (pairs.map (bitOf (irRx clock))) 0 0 := by
    have code := takeAll_cutShort (irRx clock) pairs rest 0 0 short within
      unfinished
    have some : pairRuns pairs ++ rest ≠ [] := by
      intro none
      rw [(List.append_eq_nil_iff.mp none).2] at unfinished
      exact unfinished.some rfl
    rw [irrxNecPacketDeCode_behind, split, codeBehind_some _ some, code]
    rfl
  obtain ⟨i, here, isOne⟩ : ∃ i < pairs.length,
      (pairs.map (bitOf (irRx clock))).getD i false = true := by
    obtain ⟨pair, there, isOne⟩ := one
    obtain ⟨i, here, rfl⟩ := List.mem_iff_getElem.mp there
    refine ⟨i, here, ?_⟩
    rw [List.getD_eq_getElem _ _ (by rwa [List.length_map]), List.getElem_map]
    exact isOne
  constructor
  · intro zero
    have bit := collect_bit (pairs.map (bitOf (irRx clock))) i (by omega)
    rw [← value, zero, isOne] at bit
    exact absurd bit (by simp)
  · intro ones
    have bit := collect_bit (pairs.map (bitOf (irRx clock))) 31 (by omega)
    rw [← value, ones, List.getD_eq_default _ _ (by
      rw [List.length_map]
      omega)] at bit
    exact absurd bit (by decide)

theorem whole_of_not_cutShort
    (notCut : ¬ CutShort (irRx clock) (runs (items buf)))
    (notRepeat : irrxNecPacketDeCode clock buf ≠ 0)
    (notError : irrxNecPacketDeCode clock buf ≠ -1) :
    WholeCode (irRx clock) (runs (items buf))
      (irrxNecPacketDeCode clock buf) := by
  have value := irrxNecPacketDeCode_behind clock buf
  obtain ⟨alternate, none | ⟨mark, more, behind⟩⟩ :=
    leader_behind (irRx clock) (runs (items buf)) (runs_alternate _)
  · rw [none] at value
    exact absurd value notError
  · rw [behind] at alternate
    rw [behind, codeBehind_some _ (List.cons_ne_nil _ _)] at value
    rcases bits_end (irRx clock) 0 0 (by omega) mark more alternate with
      failed | ⟨pairs, last, rest, split, all, each, code⟩ |
        ⟨pairs, rest, split, few, each, unfinished⟩
    · rw [failed] at value
      exact absurd value notError
    · rw [code] at value
      refine ⟨pairs, last, rest, behind.trans split, by omega, each,
        fun i within => ?_⟩
      rw [value]
      exact collect_bit _ i within
    · have code := takeAll_cutShort (irRx clock) pairs rest 0 0 few each
        unfinished
      rw [split, code] at value
      have zeros : ∀ bit ∈ pairs.map (bitOf (irRx clock)), bit = false := by
        intro bit there
        obtain ⟨pair, here, rfl⟩ := List.mem_map.mp there
        rw [Bool.eq_false_iff]
        exact fun one => notCut ⟨pairs, rest, behind.trans split, few, each,
          unfinished, pair, here, one⟩
      exact absurd (value.trans (collect_zeros _ zeros 0 0)) notRepeat

end

/-- A value that is neither a repeat nor an error is a whole code, unless the
runs behind the leader are cut short. -/
theorem codePromise_iff_not_cutShort (clock : IrClock) (buf : List Byte) :
    CodePromise clock buf ↔ ¬ CutShort (irRx clock) (runs (items buf)) := by
  constructor
  · intro promise cut
    have partial_ := cut.partial_code
    exact cut.not_whole _ (promise.whole partial_.1 partial_.2)
  · intro whole
    refine ⟨fun notRepeat notError => ?_, fun other same => ?_⟩
    · exact whole_of_not_cutShort whole notRepeat notError
    · rw [irrxNecPacketDeCode_behind, irrxNecPacketDeCode_behind, same]

/-- The leader of the sender at 26 MHz, a bit 1 and the next mark. -/
theorem cutShort_code :
    irrxNecPacketDeCode .m26
        ((irtxNecPacketCode .m26 (irNecCode 0x59 0x16)).take 6) = 1 ∧
      ¬ CodePromise .m26
        ((irtxNecPacketCode .m26 (irNecCode 0x59 0x16)).take 6) := by
  have cut : CutShort (irRx .m26)
      (runs (items ((irtxNecPacketCode .m26 (irNecCode 0x59 0x16)).take 6))) :=
    ⟨[(14, 43)], [(true, 14)], by decide, by decide,
      List.forall_mem_singleton.mpr ⟨by decide, by decide⟩, .inl ⟨14, rfl⟩,
      (14, 43), List.mem_singleton.mpr rfl, by decide⟩
  refine ⟨by decide, fun promise => ?_⟩
  exact cut.not_whole _
    (promise.whole cut.partial_code.1 cut.partial_code.2)

end XR872.Infrared
