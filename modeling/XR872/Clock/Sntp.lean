/-
Network time.

The seconds of an SNTP answer are made an instant, the instant is broken down
into calendar fields, and the zone offset is added to one of the fields.
-/

import XR872.Library.Calendar

namespace XR872.Clock

open Calendars

def secondsPerDay : Nat := 86400

/-- What the code reads of a `struct tm`. -/
structure Tm where
  tmSec : Nat
  tmMin : Nat
  tmHour : Nat
  tmMday : Nat
  tmMon : Nat
  tmYear : Nat
  tmWday : Nat
deriving DecidableEq, Repr

/-- `gmtime`, for an instant in seconds since the beginning of 1970, which was
a Thursday. -/
def gmtime (t : Nat) : Tm :=
  let date := dateOf 1970 (t / secondsPerDay)
  { tmSec := t % 60
    tmMin := t / 60 % 60
    tmHour := t % secondsPerDay / 3600
    tmMday := date.day + 1
    tmMon := date.month
    tmYear := date.year - 1900
    tmWday := (t / secondsPerDay + 4) % 7 }

structure SntpTime where
  sec : BitVec 8
  min : BitVec 8
  hour : BitVec 8
  day : BitVec 8
  mon : BitVec 8
  week : BitVec 8
  year : BitVec 8
deriving DecidableEq, Repr

def diffSec1900And1970 : BitVec 32 := 2208988800#32

def ntohl (word : BitVec 32) : BitVec 32 :=
  word.extractLsb' 0 8 ++ word.extractLsb' 8 8 ++ word.extractLsb' 16 8 ++
    word.extractLsb' 24 8

/-- `sntp_update_time`; it stores to every field of `g_time`. -/
def sntpUpdateTime (t : Nat) : SntpTime :=
  let gt := gmtime t
  { year := BitVec.ofNat 8 (gt.tmYear % 100)
    mon := BitVec.ofNat 8 (gt.tmMon + 1)
    day := BitVec.ofNat 8 gt.tmMday
    week := BitVec.ofNat 8 gt.tmWday
    hour := BitVec.ofNat 8 (gt.tmHour + 8)
    min := BitVec.ofNat 8 gt.tmMin
    sec := BitVec.ofNat 8 gt.tmSec }

/-- `sntp_process`, with the seconds of the timestamp as they were received. -/
def sntpProcess (receiveTimestamp : BitVec 32) : SntpTime :=
  sntpUpdateTime (ntohl receiveTimestamp - diffSec1900And1970).toNat

/-- The instant that a timestamp of 1970 or later stands for. -/
def instantOf (receiveTimestamp : BitVec 32) : Nat :=
  (ntohl receiveTimestamp).toNat - diffSec1900And1970.toNat

def zoneOffset : Nat := 8 * 3600

/-- The fields show the broken-down time of the instant. -/
structure Shows (time : SntpTime) (instant : Nat) : Prop where
  sec : time.sec.toNat = (gmtime instant).tmSec
  min : time.min.toNat = (gmtime instant).tmMin
  hour : time.hour.toNat = (gmtime instant).tmHour
  day : time.day.toNat = (gmtime instant).tmMday
  mon : time.mon.toNat = (gmtime instant).tmMon + 1
  week : time.week.toNat = (gmtime instant).tmWday
  year : time.year.toNat = (gmtime instant).tmYear % 100

/-! ### Ranges -/

theorem monthLength_le (year month : Nat) : monthLength year month ≤ 31 := by
  unfold monthLength
  split
  · split_ifs
    all_goals decide
  all_goals decide

theorem tmMon_lt (t : Nat) : (gmtime t).tmMon < 12 :=
  (dateOf 1970 (t / secondsPerDay)).month_lt

theorem tmMday_range (t : Nat) :
    1 ≤ (gmtime t).tmMday ∧ (gmtime t).tmMday ≤ 31 := by
  have inside := (dateOf 1970 (t / secondsPerDay)).day_lt
  have bound := monthLength_le (dateOf 1970 (t / secondsPerDay)).year
    (dateOf 1970 (t / secondsPerDay)).month
  change 1 ≤ (dateOf 1970 (t / secondsPerDay)).day + 1 ∧
    (dateOf 1970 (t / secondsPerDay)).day + 1 ≤ 31
  omega

@[simp] theorem tmSec_eq (t : Nat) : (gmtime t).tmSec = t % 60 := rfl

@[simp] theorem tmMin_eq (t : Nat) : (gmtime t).tmMin = t / 60 % 60 := rfl

@[simp] theorem tmHour_eq (t : Nat) :
    (gmtime t).tmHour = t % secondsPerDay / 3600 := rfl

@[simp] theorem tmWday_eq (t : Nat) :
    (gmtime t).tmWday = (t / secondsPerDay + 4) % 7 := rfl

theorem tmHour_lt (t : Nat) : (gmtime t).tmHour < 24 := by
  rw [tmHour_eq]
  unfold secondsPerDay
  omega

/-- What shows an instant has its fields in the ranges of `sntp.h`. -/
theorem Shows.ranges {time : SntpTime} {instant : Nat}
    (shows_ : Shows time instant) :
    time.sec.toNat ≤ 59 ∧ time.min.toNat ≤ 59 ∧ time.hour.toNat ≤ 23 ∧
      (1 ≤ time.day.toNat ∧ time.day.toNat ≤ 31) ∧
      (1 ≤ time.mon.toNat ∧ time.mon.toNat ≤ 12) ∧ time.week.toNat ≤ 6 ∧
      time.year.toNat ≤ 127 := by
  have month := tmMon_lt instant
  have hour := tmHour_lt instant
  rw [shows_.sec, shows_.min, shows_.hour, shows_.day, shows_.mon, shows_.week,
    shows_.year]
  refine ⟨?_, ?_, by omega, tmMday_range instant, by omega, ?_, by omega⟩
  · rw [tmSec_eq]
    omega
  · rw [tmMin_eq]
    omega
  · rw [tmWday_eq]
    omega

/-! ### The zone offset -/

theorem gmtime_sameDay (t : Nat) (early : t % secondsPerDay < 16 * 3600) :
    gmtime (t + zoneOffset) =
      { gmtime t with tmHour := (gmtime t).tmHour + 8 } := by
  have day : (t + zoneOffset) / secondsPerDay = t / secondsPerDay := by
    unfold secondsPerDay zoneOffset at *
    omega
  have sec : (t + zoneOffset) % 60 = t % 60 := by
    unfold zoneOffset
    omega
  have min : (t + zoneOffset) / 60 % 60 = t / 60 % 60 := by
    unfold zoneOffset
    omega
  have hour : (t + zoneOffset) % secondsPerDay / 3600 =
      t % secondsPerDay / 3600 + 8 := by
    unfold secondsPerDay zoneOffset at *
    omega
  unfold gmtime
  rw [day, sec, min, hour]

theorem sntpProcess_eq (receiveTimestamp : BitVec 32)
    (since : diffSec1900And1970.toNat ≤ (ntohl receiveTimestamp).toNat) :
    sntpProcess receiveTimestamp = sntpUpdateTime (instantOf receiveTimestamp) := by
  unfold sntpProcess instantOf
  rw [BitVec.toNat_sub_of_le since]

theorem sntpUpdateTime_hour (t : Nat) :
    (sntpUpdateTime t).hour.toNat = (gmtime t).tmHour + 8 := by
  have hour := tmHour_lt t
  unfold sntpUpdateTime
  dsimp only
  rw [BitVec.toNat_ofNat]
  omega

theorem sntpUpdateTime_mon (t : Nat) :
    (sntpUpdateTime t).mon.toNat = (gmtime t).tmMon + 1 := by
  have month := tmMon_lt t
  unfold sntpUpdateTime
  dsimp only
  rw [BitVec.toNat_ofNat]
  omega

theorem sntpUpdateTime_shows_iff (t : Nat) :
    Shows (sntpUpdateTime t) (t + zoneOffset) ↔
      t % secondsPerDay < 16 * 3600 := by
  constructor
  · intro shows_
    have range := shows_.ranges.2.2.1
    rw [sntpUpdateTime_hour, tmHour_eq] at range
    unfold secondsPerDay at range ⊢
    omega
  · intro early
    have day := tmMday_range t
    have sec : (gmtime t).tmSec < 256 := by
      rw [tmSec_eq]
      omega
    have min : (gmtime t).tmMin < 256 := by
      rw [tmMin_eq]
      omega
    have week : (gmtime t).tmWday < 256 := by
      rw [tmWday_eq]
      omega
    have shifted := gmtime_sameDay t early
    have small (number : Nat) (below : number < 256) :
        (BitVec.ofNat 8 number).toNat = number := by
      rw [BitVec.toNat_ofNat]
      exact Nat.mod_eq_of_lt below
    exact
      { sec := by rw [shifted]; exact small _ sec
        min := by rw [shifted]; exact small _ min
        hour := by rw [shifted]; exact sntpUpdateTime_hour t
        day := by rw [shifted]; exact small _ (by omega)
        mon := by rw [shifted]; exact sntpUpdateTime_mon t
        week := by rw [shifted]; exact small _ week
        year := by rw [shifted]; exact small _ (by omega) }

/-- The time shown is that of the zone exactly before 16 o'clock. -/
theorem sntpProcess_shows_iff (receiveTimestamp : BitVec 32)
    (since : diffSec1900And1970.toNat ≤ (ntohl receiveTimestamp).toNat) :
    Shows (sntpProcess receiveTimestamp)
        (instantOf receiveTimestamp + zoneOffset) ↔
      instantOf receiveTimestamp % secondsPerDay < 16 * 3600 := by
  rw [sntpProcess_eq receiveTimestamp since]
  exact sntpUpdateTime_shows_iff _

/-- At 9 o'clock on a day of 2018 it is 17 o'clock in the zone. -/
theorem sntpProcess_shows_nine :
    Shows (sntpProcess 0x9089BBDE#32) (instantOf 0x9089BBDE#32 + zoneOffset) :=
  (sntpProcess_shows_iff 0x9089BBDE#32 (by decide)).mpr (by decide)

/-- At 20 o'clock on the last day of 2018 it is the next year in the zone, and
28 o'clock in `g_time`. -/
theorem newYear_wrong :
    ¬ Shows (sntpProcess 0xC0F3D4DF#32) (instantOf 0xC0F3D4DF#32 + zoneOffset) := by
  intro shows_
  have hour := shows_.ranges.2.2.1
  revert hour
  decide

end XR872.Clock
