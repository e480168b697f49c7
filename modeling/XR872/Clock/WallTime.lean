/-
The time of day over the free-running counter.

What is stored is the difference between the time and the counter, in
microseconds. A difference of 0 stands for a clock that was never set, which
begins at a day of 2018.
-/

import XR872.Library.MachineInt
import XR872.Library.Run

namespace XR872.Clock

open MachineInts
open Runs

def timeofdayUsecPerSec : Int := 1000000

def timeofdayDefaultBaseline : Int := 1514764800000000

/-- `struct timeval`, of two `long` fields. -/
structure Timeval where
  tvSec : BitVec 32
  tvUsec : BitVec 32
deriving DecidableEq, Repr

/-- The register of the baseline. -/
structure WallClock where
  privateTime : BitVec 64
deriving DecidableEq, Repr

/-- `__wrap_settimeofday`, with the counter at this value. -/
def settimeofday (clock : WallClock) (tv : Option Timeval)
    (freeRunTime : BitVec 64) : WallClock :=
  match tv with
  | some tv =>
      { privateTime := BitVec.ofInt 64
          (tv.tvSec.toInt * timeofdayUsecPerSec + tv.tvUsec.toInt -
            freeRunTime.toInt) }
  | none => clock

/-- `__wrap_gettimeofday` into a `struct timeval`. -/
def gettimeofday (clock : WallClock) (freeRunTime : BitVec 64) :
    WallClock × Timeval :=
  let baseline :=
    if clock.privateTime = 0 then BitVec.ofInt 64 timeofdayDefaultBaseline
    else clock.privateTime
  let tm := (freeRunTime + baseline).toInt
  ({ privateTime := baseline },
    { tvSec := BitVec.ofInt 32 (tm.tdiv timeofdayUsecPerSec)
      tvUsec := BitVec.ofInt 32 (tm.tmod timeofdayUsecPerSec) })

/-- `__wrap_time`; it is the same with and without a place for the result. -/
def time (clock : WallClock) (freeRunTime : BitVec 64) :
    WallClock × BitVec 32 :=
  let (clock, tv) := gettimeofday clock freeRunTime
  (clock, tv.tvSec)

/-! ### Sessions -/

def Timeval.micros (tv : Timeval) : Int :=
  tv.tvSec.toInt * timeofdayUsecPerSec + tv.tvUsec.toInt

structure Timeval.Normalised (tv : Timeval) : Prop where
  low : 0 ≤ tv.tvUsec.toInt
  high : tv.tvUsec.toInt < timeofdayUsecPerSec

inductive ClockOp where
  | settimeofday (tv : Option Timeval)
  | gettimeofday (given : Bool)
  | time
deriving DecidableEq, Repr

structure ClockCall where
  freeRunTime : BitVec 64
  op : ClockOp
deriving DecidableEq, Repr

/-- The clock and what its readings are compared with. -/
structure ClockSession where
  clock : WallClock
  /-- The last time set, and the counter then. -/
  reference : Option (Int × Int)
  now : Int
  /-- The last reading, in microseconds. -/
  reading : Int

def clockStart : ClockSession :=
  { clock := { privateTime := 0 }, reference := none, now := 0, reading := 0 }

/-- One call, and what it returns if it reads the clock. -/
def clockTurn (session : ClockSession) (call : ClockCall) : ClockSession :=
  let session := { session with now := call.freeRunTime.toNat }
  match call.op with
  | .settimeofday tv =>
      { session with
        clock := settimeofday session.clock tv call.freeRunTime
        reference :=
          (tv.map fun tv => (tv.micros, (call.freeRunTime.toNat : Int))).or
            session.reference }
  | .gettimeofday true =>
      let (clock, tv) := gettimeofday session.clock call.freeRunTime
      { session with
        clock := clock
        reading := tv.micros }
  | .gettimeofday false => session
  | .time =>
      let (clock, tvSec) := time session.clock call.freeRunTime
      { session with
        clock := clock
        reading := tvSec.toInt * timeofdayUsecPerSec }

/-- The time that the counter stands for. -/
def ClockSession.expected (session : ClockSession) (counter : Int) : Int :=
  match session.reference with
  | some (micros, since) => micros + (counter - since)
  | none => timeofdayDefaultBaseline + counter

/-- The counter does not go back, and the times set are times. -/
def Accepts (session : ClockSession) (call : ClockCall) : Prop :=
  session.now ≤ call.freeRunTime.toNat ∧
    ∀ tv, call.op = .settimeofday (some tv) →
      tv.Normalised ∧ 0 ≤ tv.tvSec.toInt

/-- A reading is the time that the counter stands for, and before the clock is
set no earlier than the reading before. -/
def ReadsRight (session : ClockSession) (call : ClockCall) : Prop :=
  match call.op with
  | .settimeofday _ => True
  | .gettimeofday true =>
      let tv := (gettimeofday session.clock call.freeRunTime).2
      tv.micros = session.expected call.freeRunTime.toNat ∧ tv.Normalised ∧
        (session.reference = none → session.reading ≤ tv.micros)
  | .gettimeofday false => True
  | .time =>
      let tvSec := (time session.clock call.freeRunTime).2
      tvSec.toInt = session.expected call.freeRunTime.toNat / timeofdayUsecPerSec ∧
        (session.reference = none →
          session.reading / timeofdayUsecPerSec ≤ tvSec.toInt)

def ClockOp.Reads (op : ClockOp) : Prop :=
  op = .gettimeofday true ∨ op = .time

/-- The time was not set to the counter itself, and the time now is one of
`tv_sec`. -/
def Tells (session : ClockSession) (call : ClockCall) : Prop :=
  call.op.Reads →
    (∀ micros since, session.reference = some (micros, since) →
      micros ≠ since) ∧
    session.expected call.freeRunTime.toNat < 2 ^ 31 * timeofdayUsecPerSec

/-! ### One reading -/

def WallClock.baseline (clock : WallClock) : BitVec 64 :=
  if clock.privateTime = 0 then BitVec.ofInt 64 timeofdayDefaultBaseline
  else clock.privateTime

/-- What a session should add to the counter, if it were not for the value that
is taken for a clock never set. -/
def ClockSession.offset (session : ClockSession) : Int :=
  match session.reference with
  | some (micros, since) =>
      if micros = since then timeofdayDefaultBaseline else micros - since
  | none => timeofdayDefaultBaseline

structure Keeps (session : ClockSession) : Prop where
  baseline : session.clock.baseline = BitVec.ofInt 64 session.offset
  now : 0 ≤ session.now
  reference : ∀ micros since, session.reference = some (micros, since) →
    0 ≤ micros ∧ micros < 2 ^ 31 * timeofdayUsecPerSec ∧ 0 ≤ since ∧
      since ≤ session.now
  reading : session.reference = none →
    session.reading ≤ timeofdayDefaultBaseline + session.now

theorem toInt_ofInt_64 (value : Int) :
    (BitVec.ofInt 64 value).toInt =
      (value + 9223372036854775808) % 18446744073709551616 -
        9223372036854775808 :=
  toInt_ofInt 63 value

theorem gettimeofday_fst (clock : WallClock) (counter : BitVec 64) :
    (gettimeofday clock counter).1 = { privateTime := clock.baseline } := rfl

theorem gettimeofday_snd (clock : WallClock) (counter : BitVec 64)
    (offset : Int) (baseline : clock.baseline = BitVec.ofInt 64 offset)
    (low : 0 ≤ counter.toNat + offset)
    (high : counter.toNat + offset < 9223372036854775808) :
    (gettimeofday clock counter).2 =
      { tvSec := BitVec.ofInt 32
          ((counter.toNat + offset) / timeofdayUsecPerSec)
        tvUsec := BitVec.ofInt 32
          ((counter.toNat + offset) % timeofdayUsecPerSec) } := by
  have sum : counter + BitVec.ofInt 64 offset =
      BitVec.ofInt 64 (counter.toNat + offset) := by
    rw [BitVec.ofInt_add, BitVec.ofInt_natCast, BitVec.ofNat_toNat,
      BitVec.setWidth_eq]
  have value : (counter + clock.baseline).toInt = counter.toNat + offset := by
    rw [baseline, sum, toInt_ofInt_64]
    omega
  have unfolded : (gettimeofday clock counter).2 =
      { tvSec := BitVec.ofInt 32
          ((counter + clock.baseline).toInt.tdiv timeofdayUsecPerSec)
        tvUsec := BitVec.ofInt 32
          ((counter + clock.baseline).toInt.tmod timeofdayUsecPerSec) } := rfl
  rw [unfolded, value, Int.tdiv_eq_ediv_of_nonneg low,
    Int.tmod_eq_emod_of_nonneg low]

theorem ClockSession.expected_nonneg {session : ClockSession}
    (keeps : Keeps session) (counter : Int) (later : session.now ≤ counter) :
    0 ≤ session.expected counter := by
  have now := keeps.now
  unfold ClockSession.expected
  cases reference : session.reference with
  | none =>
      change 0 ≤ timeofdayDefaultBaseline + counter
      unfold timeofdayDefaultBaseline
      omega
  | some pair =>
      have range := keeps.reference pair.1 pair.2 reference
      change 0 ≤ pair.1 + (counter - pair.2)
      omega

/-- Where the time was not set to the counter, the offset gives the time
expected. -/
theorem ClockSession.offset_expected {session : ClockSession}
    (apart : ∀ micros since, session.reference = some (micros, since) →
      micros ≠ since) (counter : Int) :
    counter + session.offset = session.expected counter := by
  unfold ClockSession.offset ClockSession.expected
  cases reference : session.reference with
  | none => exact Int.add_comm _ _
  | some pair =>
      change counter + (if pair.1 = pair.2 then _ else _) = _
      rw [if_neg (apart pair.1 pair.2 reference)]
      change counter + (pair.1 - pair.2) = pair.1 + (counter - pair.2)
      omega

theorem reading_right {session : ClockSession} (keeps : Keeps session)
    (counter : BitVec 64) (later : session.now ≤ counter.toNat)
    (apart : ∀ micros since, session.reference = some (micros, since) →
      micros ≠ since)
    (fits : session.expected counter.toNat < 2 ^ 31 * timeofdayUsecPerSec) :
    (gettimeofday session.clock counter).2.tvSec.toInt =
        session.expected counter.toNat / timeofdayUsecPerSec ∧
      (gettimeofday session.clock counter).2.tvUsec.toInt =
        session.expected counter.toNat % timeofdayUsecPerSec := by
  have low := session.expected_nonneg keeps counter.toNat later
  have same := session.offset_expected apart counter.toNat
  unfold timeofdayUsecPerSec at *
  rw [gettimeofday_snd session.clock counter session.offset keeps.baseline
    (by omega) (by omega), same]
  dsimp only
  rw [toInt_ofInt_32, toInt_ofInt_32]
  unfold timeofdayUsecPerSec
  omega

theorem reading_wrong {session : ClockSession} (keeps : Keeps session)
    (counter : BitVec 64)
    (untold : ¬ ((∀ micros since, session.reference = some (micros, since) →
        micros ≠ since) ∧
      session.expected counter.toNat < 2 ^ 31 * timeofdayUsecPerSec)) :
    (gettimeofday session.clock counter).2.tvSec.toInt ≠
      session.expected counter.toNat / timeofdayUsecPerSec := by
  intro right
  have range := toInt_range_32 (gettimeofday session.clock counter).2.tvSec
  by_cases fits : session.expected counter.toNat < 2 ^ 31 * timeofdayUsecPerSec
  · -- The time was set to the counter, and the default baseline is added.
    have met : ∃ micros, session.reference = some (micros, micros) := by
      by_contra none_met
      refine untold ⟨fun micros since reference same => ?_, fits⟩
      subst same
      exact none_met ⟨micros, reference⟩
    obtain ⟨micros, reference⟩ := met
    have expected : session.expected counter.toNat = counter.toNat := by
      unfold ClockSession.expected
      rw [reference]
      change micros + ((counter.toNat : Int) - micros) = _
      omega
    have offset : session.offset = timeofdayDefaultBaseline := by
      unfold ClockSession.offset
      rw [reference]
      exact if_pos rfl
    have baseline := keeps.baseline
    rw [offset] at baseline
    rw [expected] at fits right
    unfold timeofdayUsecPerSec timeofdayDefaultBaseline at *
    rw [gettimeofday_snd session.clock counter _ baseline (by omega) (by omega)]
      at right
    dsimp only at right
    rw [toInt_ofInt_32] at right
    unfold timeofdayUsecPerSec at right
    omega
  · unfold timeofdayUsecPerSec at *
    omega

theorem reading_iff {session : ClockSession} (keeps : Keeps session)
    (call : ClockCall) (accepts : Accepts session call) :
    ReadsRight session call ↔ Tells session call := by
  have later := accepts.1
  obtain ⟨counter, op⟩ := call
  dsimp only at later
  have before : session.reference = none →
      session.reading ≤ session.expected counter.toNat := by
    intro reference
    have reading := keeps.reading reference
    unfold ClockSession.expected
    rw [reference]
    dsimp only
    omega
  cases op with
  | settimeofday tv =>
      have silent : ¬ (ClockOp.settimeofday tv).Reads := by
        unfold ClockOp.Reads
        simp
      exact ⟨fun _ reads => absurd reads silent, fun _ => trivial⟩
  | gettimeofday given =>
      cases given with
      | false =>
          have silent : ¬ (ClockOp.gettimeofday false).Reads := by
            unfold ClockOp.Reads
            simp
          exact ⟨fun _ reads => absurd reads silent, fun _ => trivial⟩
      | true =>
          constructor
          · rintro ⟨micros, ⟨low, high⟩, _⟩ _
            by_contra untold
            apply reading_wrong keeps counter untold
            dsimp only at micros low high
            rw [← micros]
            unfold Timeval.micros timeofdayUsecPerSec at *
            omega
          · intro tells
            obtain ⟨apart, fits⟩ := tells (Or.inl rfl)
            obtain ⟨sec, usec⟩ := reading_right keeps counter later apart fits
            have micros : (gettimeofday session.clock counter).2.micros =
                session.expected counter.toNat := by
              unfold Timeval.micros
              rw [sec, usec]
              exact Int.ediv_mul_add_emod _ _
            refine ⟨micros, ⟨?_, ?_⟩, fun reference => ?_⟩
            · rw [usec]
              exact Int.emod_nonneg _ (by decide)
            · rw [usec]
              exact Int.emod_lt_of_pos _ (by decide)
            · rw [micros]
              exact before reference
  | time =>
      constructor
      · rintro ⟨sec, _⟩ _
        by_contra untold
        exact reading_wrong keeps counter untold sec
      · intro tells
        obtain ⟨apart, fits⟩ := tells (Or.inr rfl)
        have sec := (reading_right keeps counter later apart fits).1
        refine ⟨sec, fun reference => ?_⟩
        change _ ≤ (gettimeofday session.clock counter).2.tvSec.toInt
        rw [sec]
        exact Int.ediv_le_ediv (by decide) (before reference)

/-! ### Runs -/

theorem baseline_ne_zero (clock : WallClock) : clock.baseline ≠ 0 := by
  unfold WallClock.baseline
  split_ifs with unset
  · decide
  · exact unset

theorem baseline_read (clock : WallClock) (counter : BitVec 64) :
    (gettimeofday clock counter).1.baseline = clock.baseline := by
  rw [gettimeofday_fst]
  exact if_neg (baseline_ne_zero clock)

theorem baseline_set (clock : WallClock) (tv : Timeval) (counter : BitVec 64)
    (low : 0 ≤ tv.micros)
    (high : tv.micros < 2 ^ 31 * timeofdayUsecPerSec) :
    (settimeofday clock (some tv) counter).baseline =
      BitVec.ofInt 64 (if tv.micros = counter.toNat then
        timeofdayDefaultBaseline else tv.micros - counter.toNat) := by
  have difference : (settimeofday clock (some tv) counter).privateTime =
      BitVec.ofInt 64 (tv.micros - counter.toNat) := by
    change BitVec.ofInt 64 (tv.micros - counter.toInt) = _
    rw [Int.sub_eq_add_neg, Int.sub_eq_add_neg, BitVec.ofInt_add,
      BitVec.ofInt_add, BitVec.ofInt_neg, BitVec.ofInt_neg, BitVec.ofInt_toInt,
      BitVec.ofInt_natCast, BitVec.ofNat_toNat, BitVec.setWidth_eq]
  have zero : (BitVec.ofInt 64 (tv.micros - counter.toNat) = 0) ↔
      tv.micros = counter.toNat := by
    have bound := counter.isLt
    rw [← BitVec.toNat_inj]
    have value := toNat_ofInt 64 (tv.micros - counter.toNat)
    unfold timeofdayUsecPerSec at high
    change (BitVec.ofInt 64 _).toNat = 0 ↔ _
    omega
  unfold WallClock.baseline
  rw [difference]
  by_cases met : tv.micros = counter.toNat
  · rw [if_pos (zero.mpr met), if_pos met]
  · rw [if_neg (fun unset => met (zero.mp unset)), if_neg met]

theorem clockTurn_keeps {session : ClockSession} (call : ClockCall)
    (keeps : Keeps session) (accepts : Accepts session call)
    (right : ReadsRight session call) : Keeps (clockTurn session call) := by
  obtain ⟨later, valid⟩ := accepts
  obtain ⟨counter, op⟩ := call
  dsimp only at later valid
  have now : 0 ≤ (counter.toNat : Int) := Int.natCast_nonneg _
  have older : ∀ micros since, session.reference = some (micros, since) →
      0 ≤ micros ∧ micros < 2 ^ 31 * timeofdayUsecPerSec ∧ 0 ≤ since ∧
        since ≤ (counter.toNat : Int) := by
    intro micros since reference
    have range := keeps.reference micros since reference
    exact ⟨range.1, range.2.1, range.2.2.1, Int.le_trans range.2.2.2 later⟩
  have grown : session.reference = none →
      session.reading ≤ timeofdayDefaultBaseline + (counter.toNat : Int) := by
    intro reference
    have reading := keeps.reading reference
    omega
  cases op with
  | settimeofday tv =>
      cases tv with
      | none =>
          exact
            { baseline := keeps.baseline
              now := now
              reference := older
              reading := grown }
      | some tv =>
          obtain ⟨⟨low, high⟩, positive⟩ := valid tv rfl
          have range := toInt_range_32 tv.tvSec
          have micros : 0 ≤ tv.micros ∧
              tv.micros < 2 ^ 31 * timeofdayUsecPerSec := by
            unfold Timeval.micros timeofdayUsecPerSec at *
            omega
          exact
            { baseline := baseline_set session.clock tv counter micros.1 micros.2
              now := now
              reference := by
                rintro _ _ ⟨⟩
                exact ⟨micros.1, micros.2, now, Int.le_refl _⟩
              reading := fun reference => by cases reference }
  | gettimeofday given =>
      cases given with
      | false =>
          exact
            { baseline := keeps.baseline
              now := now
              reference := older
              reading := grown }
      | true =>
          exact
            { baseline := (baseline_read session.clock counter).trans keeps.baseline
              now := now
              reference := older
              reading := by
                intro reference
                change session.reference = none at reference
                have micros := right.1
                unfold ClockSession.expected at micros
                rw [reference] at micros
                exact le_of_eq micros }
  | time =>
      exact
        { baseline := (baseline_read session.clock counter).trans keeps.baseline
          now := now
          reference := older
          reading := by
            intro reference
            change session.reference = none at reference
            have sec := right.1
            unfold ClockSession.expected at sec
            rw [reference] at sec
            change (gettimeofday session.clock counter).2.tvSec.toInt * _ ≤ _
            change (gettimeofday session.clock counter).2.tvSec.toInt = _ at sec
            rw [sec]
            exact Int.ediv_mul_le _ (by decide) }

theorem clockStart_keeps : Keeps clockStart :=
  { baseline := rfl
    now := Int.le_refl 0
    reference := fun _ _ reference => by cases reference
    reading := fun _ => by decide }

/-- Every reading of a run is right exactly if each is made after a set to
another time than the counter's, or before any set, and while `tv_sec` holds
the time. -/
theorem readings_right_iff (calls : List ClockCall)
    (accepts : Along clockTurn Accepts clockStart calls) :
    Along clockTurn ReadsRight clockStart calls ↔
      Along clockTurn Tells clockStart calls :=
  along_iff_along_of_given Accepts ReadsRight Tells Keeps
    (fun _ call keeps given tells => clockTurn_keeps call keeps given
      ((reading_iff keeps call given).mpr tells))
    (fun _ call keeps given => reading_iff keeps call given)
    clockStart clockStart_keeps calls accepts

/-- A reading of the clock as it starts, a time of 2020 set, and a reading a
second later. -/
def setAndRead : List ClockCall :=
  [{ freeRunTime := 5000000#64, op := .gettimeofday true },
    { freeRunTime := 6000000#64,
      op := .settimeofday (some { tvSec := 1600000000#32, tvUsec := 250000#32 }) },
    { freeRunTime := 7000000#64, op := .time }]

theorem setAndRead_right :
    Along clockTurn ReadsRight clockStart setAndRead := by
  apply (readings_right_iff setAndRead ?_).mpr
  · refine ⟨fun _ => ⟨?_, by decide⟩, fun _ => ⟨?_, by decide⟩,
      fun _ => ⟨?_, by decide⟩, trivial⟩
    · rintro _ _ ⟨⟩
    · rintro _ _ ⟨⟩
    · rintro _ _ ⟨⟩
      decide
  · refine ⟨⟨by decide, ?_⟩, ⟨by decide, ?_⟩, ⟨by decide, ?_⟩, trivial⟩
    · rintro _ ⟨⟩
    · rintro _ ⟨⟩
      exact ⟨⟨by decide, by decide⟩, by decide⟩
    · rintro _ ⟨⟩

/-- The clock set to 100 s when the counter is at 100 s, and read. -/
theorem setToCounter_wrong :
    ¬ Along clockTurn ReadsRight clockStart
      [{ freeRunTime := 100000000#64,
         op := .settimeofday (some { tvSec := 100#32, tvUsec := 0#32 }) },
        { freeRunTime := 100000000#64, op := .gettimeofday true }] := by
  rintro ⟨_, ⟨micros, _⟩, _⟩
  revert micros
  decide

end XR872.Clock
