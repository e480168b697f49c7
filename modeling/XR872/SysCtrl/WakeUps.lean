/-
Permits of the semaphore and messages in the list.

The semaphore counts to one. While every push releases it at zero, the permits
and the pops that hold one, with the push that has yet to release, are as many
as the messages pending, and every message can be popped.
-/

import XR872.SysCtrl.Calls

namespace XR872.SysCtrl

open Circles
open Runs

variable {size : Nat} {α : Type}

/-! ### Counting calls -/

namespace Call

def locked : Call α → Bool
  | .pushCheck _ _ | .pushRelease | .pushUnlock | .popTake | .popUnlock _ => true
  | _ => false

def popping : Call α → Bool
  | .popLock | .popTake | .popUnlock _ => true
  | _ => false

/-- A pop that has a permit and has not taken a message for it. -/
def owed : Call α → Bool
  | .popLock | .popTake => true
  | _ => false

def unreleased : Call α → Bool
  | .pushRelease => true
  | _ => false

/-- A pop that has returned a message. -/
def served : Call α → Bool
  | .popDone (some _) => true
  | _ => false

def missed : Call α → Bool
  | .popUnlock none | .popDone none => true
  | _ => false

end Call

theorem countP_set (holds : Call α → Bool) (calls : List (Call α))
    (index : Nat) (old new : Call α) (found : calls[index]? = some old) :
    (calls.set index new).countP holds + (holds old).toNat =
      calls.countP holds + (holds new).toNat := by
  induction calls generalizing index with
  | nil => cases found
  | cons first rest ih =>
      cases index with
      | zero =>
          cases found
          rw [List.set_cons_zero, List.countP_cons, List.countP_cons]
          cases holds old <;> cases holds new <;> simp
      | succ index =>
          have inner := ih index found
          rw [List.set_cons_succ, List.countP_cons, List.countP_cons]
          omega

theorem countP_concat (holds : Call α → Bool) (calls : List (Call α))
    (call : Call α) :
    (calls ++ [call]).countP holds = calls.countP holds + (holds call).toNat := by
  rw [List.countP_append, List.countP_singleton]
  cases holds call <;> rfl

/-! ### The invariant -/

structure Counted [Zero α] (machine : Machine size α) : Prop where
  list : machine.inserted = 0 ∧ machine.list = sortedListInit size α ∨
    ∃ index, Slot machine.list index
  /-- Every message pending has a permit, a pop that took its permit, or a push
  that is about to release one. -/
  count : machine.taken + machine.permits + machine.calls.countP Call.owed +
    machine.calls.countP Call.unreleased = machine.inserted
  permits : machine.permits ≤ 1
  lock : ∀ index call, machine.calls[index]? = some call →
    (call.locked = true ↔ machine.lock = some index)
  holder : ∀ index, machine.lock = some index → index < machine.calls.length
  found : ∀ call ∈ machine.calls, call.missed = false

/-- A push releases the semaphore only while it has no permit. -/
def ReleasesAtZero (machine : Machine size α) (action : Action α) : Prop :=
  ∀ index, action = .go index → machine.calls[index]? = some .pushRelease →
    machine.permits = 0

instance [DecidableEq α] (machine : Machine size α) (action : Action α) :
    Decidable (ReleasesAtZero machine action) :=
  match action with
  | .go index =>
      decidable_of_iff
        (machine.calls[index]? = some .pushRelease → machine.permits = 0)
        ⟨fun atZero _ same => Action.go.inj same ▸ atZero,
          fun atZero => atZero index rfl⟩
  | .push _ _ => isTrue (fun _ same => nomatch same)
  | .pop => isTrue (fun _ same => nomatch same)
  | .expire _ => isTrue (fun _ same => nomatch same)

section Counted

variable [Zero α]

theorem counted_start : Counted (Machine.start size α) := by
  exact {
    list := Or.inl ⟨rfl, rfl⟩
    count := rfl
    permits := Nat.zero_le 1
    lock := by
      intro index call found
      cases found
    holder := by
      intro index locked
      cases locked
    found := by
      intro call member
      cases member }

theorem Counted.begins {machine : Machine size α} (counted : Counted machine)
    (call : Call α) (unlocked : call.locked = false) (owed : call.owed = false)
    (released : call.unreleased = false) (missed : call.missed = false) :
    Counted { machine with calls := machine.calls ++ [call] } := by
  exact {
    list := counted.list
    count := by
      change machine.taken + machine.permits + (machine.calls ++ [call]).countP _ +
        (machine.calls ++ [call]).countP _ = machine.inserted
      have count := counted.count
      rw [countP_concat, countP_concat, owed, released]
      exact count
    permits := counted.permits
    lock := by
      intro index other found
      rw [List.getElem?_append] at found
      by_cases old : index < machine.calls.length
      · rw [if_pos old] at found
        exact counted.lock index other found
      · rw [if_neg old] at found
        have same : other = call := by
          cases place : index - machine.calls.length with
          | zero =>
              rw [place] at found
              exact (Option.some.inj found).symm
          | succ more =>
              rw [place] at found
              cases found
        rw [same, unlocked]
        apply iff_of_false Bool.false_ne_true
        intro locked
        exact old (counted.holder index locked)
    holder := by
      intro index locked
      have below := counted.holder index locked
      rw [List.length_append, List.length_singleton]
      exact Nat.lt_succ_of_lt below
    found := forall_concat _ _ _ counted.found missed }

/-- A call that moves on, with what it does to the rest of the machine. -/
theorem Counted.moved {machine : Machine size α} (counted : Counted machine)
    (index : Nat) (old new : Call α) (found : machine.calls[index]? = some old)
    (list : SortedList size α) (lock : Option Nat)
    (permits inserted taken : Nat) (fullAt : List Nat)
    (shape : inserted = 0 ∧ list = sortedListInit size α ∨
      ∃ place, Slot list place)
    (balance : taken + permits + new.owed.toNat + new.unreleased.toNat +
      machine.inserted = machine.taken + machine.permits + old.owed.toNat +
      old.unreleased.toNat + inserted)
    (few : permits ≤ 1) (own : new.locked = true ↔ lock = some index)
    (others : ∀ other, other ≠ index →
      (machine.lock = some other ↔ lock = some other))
    (missed : new.missed = false) :
    Counted { list, lock, permits, calls := machine.calls.set index new,
              inserted, taken, fullAt } := by
  have below : index < machine.calls.length :=
    (List.getElem?_eq_some_iff.mp found).1
  exact {
    list := shape
    count := by
      have count := counted.count
      have owed := countP_set Call.owed machine.calls index old new found
      have released :=
        countP_set Call.unreleased machine.calls index old new found
      change taken + permits + (machine.calls.set index new).countP _ +
        (machine.calls.set index new).countP _ = inserted
      omega
    permits := few
    lock := by
      intro place call set
      by_cases same : place = index
      · subst same
        rw [List.getElem?_set_self below] at set
        rw [← Option.some.inj set]
        exact own
      · rw [List.getElem?_set_ne (Ne.symm same)] at set
        rw [counted.lock place call set]
        exact others place same
    holder := by
      intro place locked
      rw [List.length_set]
      by_cases same : place = index
      · rw [same]
        exact below
      · exact counted.holder place ((others place same).mpr locked)
    found := forall_set _ _ index new counted.found missed }

theorem others_acquire (lock : Option Nat) (free : lock = none) (index : Nat) :
    ∀ other, other ≠ index → (lock = some other ↔ some index = some other) := by
  intro other apart
  rw [free]
  apply iff_of_false
  · intro same
    cases same
  · intro same
    exact apart (Option.some.inj same).symm

theorem others_release (lock : Option Nat) (index : Nat)
    (holds : lock = some index) :
    ∀ other, other ≠ index → (lock = some other ↔ none = some other) := by
  intro other apart
  rw [holds]
  apply iff_of_false
  · intro same
    exact apart (Option.some.inj same).symm
  · intro same
    cases same

theorem sortedListInsert_counted (compare : α → α → Int)
    (machine : Machine size α) (counted : Counted machine) (arg : α)
    (equal : 0 ≤ compare arg arg) (room : sortedListRoom machine.list = true) :
    ∃ list index, sortedListInsert compare machine.list arg = some list ∧
      Slot list index := by
  rcases counted.list with ⟨_, new⟩ | ⟨index, slot⟩
  · have positive : 0 < size := by
      rw [new] at room
      exact sortedListRoom_init.mp room
    obtain ⟨index, fresh⟩ := @fresh_init size α _ positive
    rw [← new] at fresh
    obtain ⟨list, insert, kept, _⟩ :=
      sortedListInsert_fresh _ machine.list arg index fresh
    exact ⟨list, index, insert, kept⟩
  · obtain ⟨list, insert, kept, _⟩ := sortedListInsert_slot _ machine.list arg
      index slot equal
    exact ⟨list, index, insert, kept⟩

theorem Counted.slot {machine : Machine size α} (counted : Counted machine)
    (inserted : 0 < machine.inserted) : ∃ index, Slot machine.list index := by
  rcases counted.list with ⟨zero, _⟩ | slot
  · rw [zero] at inserted
    exact absurd inserted (Nat.lt_irrefl 0)
  · exact slot

theorem counted_advance (compare : α → α → Int)
    (equal : ∀ arg, 0 ≤ compare arg arg) (machine : Machine size α)
    (counted : Counted machine) (index : Nat) (call : Call α)
    (found : machine.calls[index]? = some call)
    (clean : call = .pushRelease → machine.permits = 0) :
    Counted (machine.advance compare index call) := by
  have lock := counted.lock index call found
  cases call with
  | pushLock arg timeout =>
      cases free : machine.lock with
      | some holder =>
          simp only [Machine.advance, free]
          exact counted
      | none =>
          simp only [Machine.advance, free]
          exact counted.moved index _ (.pushCheck arg timeout) found _ _ _ _ _ _
            counted.list rfl counted.permits (iff_of_true rfl rfl)
            (others_acquire _ free index) rfl
  | pushCheck arg timeout =>
      have holds := lock.mp rfl
      by_cases room : sortedListRoom machine.list = true
      · obtain ⟨list, place, insert, slot⟩ :=
          sortedListInsert_counted compare machine counted arg (equal arg) room
        simp only [Machine.advance, room, if_true, insert]
        exact counted.moved index _ .pushRelease found _ _ _ _ _ _
          (Or.inr ⟨place, slot⟩) (by simp [Call.owed, Call.unreleased, Machine.put]; omega)
          counted.permits (iff_of_true rfl holds) (fun _ _ => Iff.rfl) rfl
      · simp only [Machine.advance, if_neg room]
        exact counted.moved index _ (.pushSleep arg timeout) found _ _ _ _ _ _
          counted.list rfl counted.permits
          (iff_of_false Bool.false_ne_true (by simp))
          (others_release _ index holds) rfl
  | pushSleep arg timeout =>
      have free : machine.lock ≠ some index := by
        intro holds
        exact Bool.false_ne_true (lock.mpr holds)
      by_cases late : timeout ≤ blockWaitEachTime
      · simp only [Machine.advance, if_pos late]
        exact counted.moved index _ (.pushDone false) found _ _ _ _ _ _
          counted.list rfl counted.permits (iff_of_false Bool.false_ne_true free)
          (fun _ _ => Iff.rfl) rfl
      · simp only [Machine.advance, if_neg late]
        exact counted.moved index _ (.pushLock arg _) found _ _ _ _ _ _
          counted.list rfl counted.permits (iff_of_false Bool.false_ne_true free)
          (fun _ _ => Iff.rfl) rfl
  | pushRelease =>
      have holds := lock.mp rfl
      have zero := clean rfl
      simp only [Machine.advance]
      exact counted.moved index _ .pushUnlock found _ _ _ _ _ _ counted.list
        (by simp [Call.owed, Call.unreleased, Machine.put, Machine.release, zero])
        (Nat.min_le_right _ _) (iff_of_true rfl holds) (fun _ _ => Iff.rfl) rfl
  | pushUnlock =>
      have holds := lock.mp rfl
      simp only [Machine.advance]
      exact counted.moved index _ (.pushDone true) found _ _ _ _ _ _
        counted.list rfl counted.permits
        (iff_of_false Bool.false_ne_true (by simp))
        (others_release _ index holds) rfl
  | pushDone ok => exact counted
  | popWait =>
      have free : machine.lock ≠ some index := by
        intro holds
        exact Bool.false_ne_true (lock.mpr holds)
      have few := counted.permits
      by_cases permit : 0 < machine.permits
      · simp only [Machine.advance, if_pos permit]
        exact counted.moved index _ .popLock found _ _ _ _ _ _ counted.list
          (by simp [Call.owed, Call.unreleased, Machine.put]; omega) (by omega)
          (iff_of_false Bool.false_ne_true free) (fun _ _ => Iff.rfl) rfl
      · simp only [Machine.advance, if_neg permit]
        exact counted
  | popLock =>
      cases free : machine.lock with
      | some holder =>
          simp only [Machine.advance, free]
          exact counted
      | none =>
          simp only [Machine.advance, free]
          exact counted.moved index _ .popTake found _ _ _ _ _ _ counted.list rfl
            counted.permits (iff_of_true rfl rfl) (others_acquire _ free index)
            rfl
  | popTake =>
      have holds := lock.mp rfl
      have waiting : 0 < machine.calls.countP Call.owed :=
        List.countP_pos_iff.mpr ⟨_, List.mem_of_getElem? found, rfl⟩
      have inserted : 0 < machine.inserted := by
        have count := counted.count
        omega
      obtain ⟨place, slot⟩ := counted.slot inserted
      obtain ⟨list, take, kept, _⟩ := sortedListTake_slot machine.list place slot
      simp only [Machine.advance, take]
      exact counted.moved index _ (.popUnlock (some _)) found _ _ _ _ _ _
        (Or.inr ⟨place, kept⟩) (by simp [Call.owed, Call.unreleased, Machine.put]; omega)
        counted.permits (iff_of_true rfl holds) (fun _ _ => Iff.rfl) rfl
  | popUnlock arg =>
      have holds := lock.mp rfl
      have kind := counted.found _ (List.mem_of_getElem? found)
      simp only [Machine.advance]
      exact counted.moved index _ (.popDone arg) found _ _ _ _ _ _ counted.list
        rfl counted.permits (iff_of_false Bool.false_ne_true (by simp))
        (others_release _ index holds) (by cases arg <;> exact kind)
  | popTimeout => exact counted
  | popDone arg => exact counted

theorem counted_turn (compare : α → α → Int)
    (equal : ∀ arg, 0 ≤ compare arg arg) (machine : Machine size α)
    (action : Action α) (counted : Counted machine)
    (clean : ReleasesAtZero machine action) :
    Counted (Machine.turn compare machine action) := by
  rcases machine.turn_cases compare action with same |
    ⟨arg, timeout, _, turned⟩ | ⟨_, turned⟩ | ⟨index, _, found, turned⟩ |
    ⟨index, call, isGo, found, turned⟩
  · rw [same]
    exact counted
  · rw [turned]
    exact counted.begins (.pushLock arg timeout) rfl rfl rfl rfl
  · rw [turned]
    exact counted.begins .popWait rfl rfl rfl rfl
  · rw [turned]
    have free : machine.lock ≠ some index := by
      intro holds
      exact Bool.false_ne_true ((counted.lock index _ found).mpr holds)
    exact counted.moved index _ .popTimeout found _ _ _ _ _ _ counted.list rfl
      counted.permits (iff_of_false Bool.false_ne_true free)
      (fun _ _ => Iff.rfl) rfl
  · rw [turned]
    apply counted_advance compare equal machine counted index call found
    intro same
    rw [same] at found
    exact clean index isGo found

end Counted

/-! ### Pops that can complete -/

section Serves

variable (compare : α → α → Int)

def popsDone (machine : Machine size α) : Nat := machine.calls.countP Call.served

def Serves (target : Nat) (machine : Machine size α) : Prop :=
  ∃ actions : List (Action α), (∀ action ∈ actions, ¬ action.isPush) ∧
    target ≤ popsDone (run (Machine.turn compare) machine actions)

variable {compare} {target : Nat} (machine : Machine size α)

theorem serves_now (enough : target ≤ popsDone machine) :
    Serves compare target machine :=
  ⟨[], fun _ member => absurd member List.not_mem_nil, enough⟩

theorem serves_turn (action : Action α) (noPush : ¬ action.isPush)
    (serves : Serves compare target (Machine.turn compare machine action)) :
    Serves compare target machine := by
  obtain ⟨actions, noPushes, enough⟩ := serves
  refine ⟨action :: actions, ?_, enough⟩
  intro other member
  rcases List.mem_cons.mp member with first | later
  · rw [first]
    exact noPush
  · exact noPushes other later

/-- The turn of a call, with the call and what becomes of the machine given. -/
theorem serves_go (index : Nat) (call : Call α)
    (found : machine.calls[index]? = some call)
    (serves : Serves compare target (machine.advance compare index call)) :
    Serves compare target machine := by
  apply serves_turn machine (.go index) id
  rw [Machine.turn_go compare machine index call found]
  exact serves

theorem put_found (index : Nat) (old new : Call α)
    (found : machine.calls[index]? = some old) :
    (machine.put index new).calls[index]? = some new :=
  List.getElem?_set_self (List.getElem?_eq_some_iff.mp found).1

theorem popsDone_put (index : Nat) (old new : Call α)
    (found : machine.calls[index]? = some old) (waits : old.served = false) :
    popsDone (machine.put index new) = popsDone machine + new.served.toNat := by
  have counted := countP_set Call.served machine.calls index old new found
  rw [waits] at counted
  exact counted

theorem serves_popLock (index : Nat) (place : Fin size)
    (found : machine.calls[index]? = some .popLock) (free : machine.lock = none)
    (slot : Slot machine.list place)
    (rest : ∀ after : Machine size α, after.lock = none →
      after.permits = machine.permits → Slot after.list place →
      popsDone after = popsDone machine + 1 → Serves compare target after) :
    Serves compare target machine := by
  obtain ⟨list, take, kept, _⟩ := sortedListTake_slot machine.list place slot
  refine serves_go machine index _ found ?_
  simp only [Machine.advance, free]
  refine serves_go _ index .popTake (put_found machine index _ _ found) ?_
  simp only [Machine.advance, Machine.put, take, List.set_set]
  refine serves_go _ index _ (put_found machine index _
    (.popUnlock (some (machine.list.args place))) found) ?_
  simp only [Machine.advance, Machine.put, List.set_set]
  apply rest
  · rfl
  · rfl
  · exact kept
  · exact popsDone_put machine index _
      (.popDone (some (machine.list.args place))) found rfl

theorem serves_permit (permits : Nat) (permit : machine.permits = permits + 1)
    (serves : Serves compare target
      { machine with calls := machine.calls ++ [.popLock], permits }) :
    Serves compare target machine := by
  have last : ∀ call : Call α,
      (machine.calls ++ [call])[machine.calls.length]? = some call := by
    intro call
    exact List.getElem?_concat_length
  have positive : 0 < machine.permits := by omega
  have taken : (Machine.turn compare machine .pop).advance compare
      machine.calls.length .popWait =
        { machine with calls := machine.calls ++ [.popLock], permits } := by
    refine (if_pos positive).trans ?_
    simp [Machine.put, Machine.turn, permit]
  refine serves_turn machine .pop id ?_
  refine serves_go _ machine.calls.length .popWait (last .popWait) ?_
  rw [taken]
  exact serves

theorem popsDone_permit (permits : Nat) :
    popsDone { machine with calls := machine.calls ++ [.popLock], permits } =
      popsDone machine :=
  countP_concat Call.served machine.calls .popLock

theorem serves_one (place : Fin size) (free : machine.lock = none)
    (permit : machine.permits = 1) (slot : Slot machine.list place)
    (one : target ≤ popsDone machine + 1) : Serves compare target machine := by
  refine serves_permit machine 0 permit ?_
  refine serves_popLock _ machine.calls.length place List.getElem?_concat_length
    free slot ?_
  intro after _ _ _ done
  apply serves_now
  rw [done, popsDone_permit]
  exact one

theorem serves_pushUnlock (index : Nat) (place : Fin size)
    (found : machine.calls[index]? = some .pushUnlock)
    (permit : machine.permits = 1) (slot : Slot machine.list place)
    (one : target ≤ popsDone machine + 1) : Serves compare target machine := by
  have same := popsDone_put machine index _ (.pushDone true) found rfl
  refine serves_go machine index _ found ?_
  refine serves_one _ place rfl permit slot ?_
  exact one.trans (Nat.add_le_add_right (Nat.le_of_eq same.symm) 1)

theorem release_eq (permits : Nat) : Machine.release permits = 1 :=
  Nat.min_eq_right (Nat.succ_le_succ (Nat.zero_le _))

/-- Whatever becomes of the permit it releases, behind a push there is one. -/
theorem serves_pushRelease (index : Nat) (place : Fin size)
    (found : machine.calls[index]? = some .pushRelease)
    (slot : Slot machine.list place) (one : target ≤ popsDone machine + 1) :
    Serves compare target machine := by
  have same := popsDone_put machine index _ .pushUnlock found rfl
  refine serves_go machine index _ found ?_
  refine serves_pushUnlock _ index place (put_found machine index _ _ found)
    (release_eq _) slot ?_
  exact one.trans (Nat.add_le_add_right (Nat.le_of_eq same.symm) 1)

/-- A pop that takes the permit before the push releases leaves room for the
next one. -/
theorem serves_two (index : Nat) (place : Fin size)
    (found : machine.calls[index]? = some .pushRelease)
    (permit : machine.permits = 1) (slot : Slot machine.list place)
    (two : target ≤ popsDone machine + 2) : Serves compare target machine := by
  have below := (List.getElem?_eq_some_iff.mp found).1
  have apart : index ≠ machine.calls.length := Nat.ne_of_lt below
  let waiting : Machine size α :=
    { machine with calls := machine.calls ++ [.popLock], permits := 0 }
  have foundRelease : waiting.calls[index]? = some .pushRelease :=
    (List.getElem?_append_left below).trans found
  have foundUnlock := put_found waiting index _ .pushUnlock foundRelease
  have foundPop : ((waiting.calls.set index .pushUnlock).set index
      (.pushDone true))[machine.calls.length]? = some .popLock := by
    rw [List.getElem?_set_ne apart, List.getElem?_set_ne apart]
    exact List.getElem?_concat_length
  have released := popsDone_put waiting index _ .pushUnlock foundRelease rfl
  have unlocked := popsDone_put _ index _ (.pushDone true) foundUnlock rfl
  refine serves_permit machine 0 permit ?_
  refine serves_go waiting index _ foundRelease ?_
  refine serves_go _ index .pushUnlock foundUnlock ?_
  refine serves_popLock _ machine.calls.length place foundPop rfl slot ?_
  intro after free permits kept done
  refine serves_one after place free (permits.trans (release_eq 0)) kept ?_
  have before : popsDone after = popsDone waiting + 1 :=
    done.trans (congrArg (· + 1) (unlocked.trans released))
  rw [before, popsDone_permit]
  exact two

end Serves

/-! ### The wake-ups -/

/-- What is promised of every state: while no pop is under way, all messages
pending can still be popped, and no pop has found the list empty. -/
structure Wakes (compare : α → α → Int) (machine : Machine size α) : Prop where
  enough : (∀ call ∈ machine.calls, call.popping = false) →
    Serves compare (popsDone machine + machine.pending) machine
  found : ∀ call ∈ machine.calls, call.missed = false

theorem unreleased_locked (call : Call α) (released : call.unreleased = true) :
    call.locked = true := by
  cases call with
  | pushRelease => rfl
  | _ => cases released

section Wakes

variable [Zero α] {machine : Machine size α}

/-- Only the holder of the lock can be past its check and before its
unlock. -/
theorem Counted.none_locked (counted : Counted machine) (holds : Call α → Bool)
    (inside : ∀ call : Call α, holds call = true → call.locked = true)
    (holder : ∀ index call, machine.lock = some index →
      machine.calls[index]? = some call → holds call = false) :
    machine.calls.countP holds = 0 := by
  rw [List.countP_eq_zero]
  intro call member held
  obtain ⟨index, found⟩ := List.getElem?_of_mem member
  have locked := (counted.lock index call found).mp (inside call held)
  rw [holder index call locked found] at held
  cases held

theorem Counted.pending_eq (counted : Counted machine)
    (idle : ∀ call ∈ machine.calls, call.popping = false) :
    machine.pending =
      machine.permits + machine.calls.countP Call.unreleased := by
  have owed : machine.calls.countP Call.owed = 0 := by
    rw [List.countP_eq_zero]
    intro call member owes
    have quiet := idle call member
    cases call with
    | popLock => cases quiet
    | popTake => cases quiet
    | _ => cases owes
  have count := counted.count
  unfold Machine.pending
  omega

theorem Counted.unreleased_one (counted : Counted machine) (index : Nat)
    (found : machine.calls[index]? = some .pushRelease) :
    machine.calls.countP Call.unreleased = 1 := by
  have holds := (counted.lock index _ found).mp rfl
  have set := countP_set Call.unreleased machine.calls index .pushRelease
    .pushUnlock found
  have rest : (machine.calls.set index .pushUnlock).countP Call.unreleased =
      0 := by
    rw [List.countP_eq_zero]
    intro call member released
    obtain ⟨place, at_place⟩ := List.getElem?_of_mem member
    by_cases same : place = index
    · rw [same, List.getElem?_set_self
        (List.getElem?_eq_some_iff.mp found).1] at at_place
      rw [← Option.some.inj at_place] at released
      cases released
    · rw [List.getElem?_set_ne (Ne.symm same)] at at_place
      have locked := (counted.lock place call at_place).mp
        (unreleased_locked call released)
      rw [holds] at locked
      exact same (Option.some.inj locked).symm
  rw [rest] at set
  simpa [Call.unreleased] using set.symm

theorem Counted.serves (compare : α → α → Int)
    (equal : ∀ arg, 0 ≤ compare arg arg) (counted : Counted machine)
    (idle : ∀ call ∈ machine.calls, call.popping = false) :
    Serves compare (popsDone machine + machine.pending) machine := by
  have few := counted.permits
  have pending := counted.pending_eq idle
  have slot : machine.pending ≠ 0 → ∃ place, Slot machine.list place := by
    intro more
    apply counted.slot
    unfold Machine.pending at more
    omega
  by_cases nothing : machine.pending = 0
  · apply serves_now
    rw [nothing]
    exact Nat.le_refl _
  obtain ⟨place, slot⟩ := slot nothing
  cases holder : machine.lock with
  | none =>
      have released := counted.none_locked Call.unreleased unreleased_locked (by
        intro index call locked
        rw [holder] at locked
        cases locked)
      exact serves_one machine place holder (by omega) slot (by omega)
  | some index =>
      have below := counted.holder index holder
      have found : machine.calls[index]? = some (machine.calls[index]) :=
        List.getElem?_eq_getElem below
      have locked := (counted.lock index _ found).mpr holder
      have quiet := idle _ (List.mem_of_getElem? found)
      have onlyHolder : (machine.calls[index]).unreleased = false →
          machine.calls.countP Call.unreleased = 0 := by
        intro other
        apply counted.none_locked Call.unreleased unreleased_locked
        intro place call holds at_place
        rw [holder] at holds
        cases holds
        rw [found] at at_place
        rw [← Option.some.inj at_place]
        exact other
      generalize machine.calls[index] = call at found locked quiet onlyHolder
      cases call with
      | pushCheck arg timeout =>
          have released := onlyHolder rfl
          have one : popsDone machine + machine.pending ≤ popsDone machine + 1 := by
            omega
          refine serves_go machine index _ found ?_
          by_cases room : sortedListRoom machine.list = true
          · obtain ⟨list, at_slot, insert, after⟩ :=
              sortedListInsert_counted compare machine counted arg (equal arg) room
            simp only [Machine.advance, room, if_true, insert]
            refine serves_pushRelease _ index at_slot
              (put_found machine index _ _ found) after ?_
            have same := popsDone_put machine index _ .pushRelease found rfl
            exact one.trans (Nat.add_le_add_right (Nat.le_of_eq same.symm) 1)
          · simp only [Machine.advance, if_neg room]
            refine serves_one _ place rfl (by change machine.permits = 1; omega)
              slot ?_
            have same := popsDone_put machine index _ (.pushSleep arg timeout)
              found rfl
            exact one.trans (Nat.add_le_add_right (Nat.le_of_eq same.symm) 1)
      | pushRelease =>
          have released := counted.unreleased_one index found
          cases permits : machine.permits with
          | zero =>
              exact serves_pushRelease machine index place found slot (by omega)
          | succ more =>
              exact serves_two machine index place found (by omega) slot
                (by omega)
      | pushUnlock =>
          have released := onlyHolder rfl
          exact serves_pushUnlock machine index place found (by omega) slot
            (by omega)
      | popTake => cases quiet
      | popUnlock arg => cases quiet
      | _ => cases locked

theorem Counted.wakes (compare : α → α → Int)
    (equal : ∀ arg, 0 ≤ compare arg arg) (counted : Counted machine) :
    Wakes compare machine := by
  exact { enough := counted.serves compare equal, found := counted.found }

end Wakes

/-- With a comparison that does not put an argument behind its equals, and
while every push of a run releases the semaphore at zero, every message pending
can be popped and no pop finds the list empty. -/
theorem wakes_along [Zero α] (compare : α → α → Int)
    (equal : ∀ arg, 0 ≤ compare arg arg) (actions : List (Action α))
    (clean : Along (Machine.turn compare) ReleasesAtZero (Machine.start size α)
      actions) :
    Always (Machine.turn compare) (Wakes compare) (Machine.start size α)
      actions := by
  apply always_imp Counted (Wakes compare)
  · intro machine counted
    exact counted.wakes compare equal
  · apply always_of_along Counted ReleasesAtZero
    · intro machine action counted atZero
      exact counted_turn compare equal machine action counted atZero
    · exact counted_start
    · exact clean

/-- Two pushes, with a pop between them. -/
theorem alternating_wakes :
    Always (Machine.turn fun _ _ => 0) (Wakes fun _ _ => 0)
      (Machine.start 2 Nat)
      [.push 5 0, .go 0, .go 0, .go 0, .pop, .go 1, .go 0, .go 1, .go 1,
        .push 3 0, .go 1, .go 2, .go 2, .go 2] := by
  apply wakes_along
  · intro arg
    exact Int.le_refl 0
  · decide

/-! ### A permit lost -/

namespace Call

def pushing : Call α → Bool
  | .pushLock _ _ | .pushCheck _ _ | .pushSleep _ _ | .pushRelease
  | .pushUnlock => true
  | _ => false

/-- A pop that was given a permit, returned or not. -/
def granted : Call α → Bool
  | .popLock | .popTake | .popUnlock _ | .popDone _ => true
  | _ => false

end Call

structure Quiet (bound : Nat) (machine : Machine size α) : Prop where
  pushes : ∀ call ∈ machine.calls, call.pushing = false
  permits : machine.permits + machine.calls.countP Call.granted ≤ bound

section Quiet

variable {bound : Nat} {machine : Machine size α}

theorem Quiet.moved (quiet : Quiet bound machine) (index : Nat)
    (old new : Call α) (found : machine.calls[index]? = some old)
    (list : SortedList size α) (lock : Option Nat)
    (permits inserted taken : Nat) (fullAt : List Nat)
    (pushing : new.pushing = false)
    (balance : permits + new.granted.toNat ≤
      machine.permits + old.granted.toNat) :
    Quiet bound { list, lock, permits, calls := machine.calls.set index new,
                  inserted, taken, fullAt } := by
  exact {
    pushes := forall_set _ _ index new quiet.pushes pushing
    permits := by
      have counted := countP_set Call.granted machine.calls index old new found
      have within := quiet.permits
      change permits + (machine.calls.set index new).countP _ ≤ bound
      omega }

theorem quiet_advance (compare : α → α → Int) (quiet : Quiet bound machine)
    (index : Nat) (call : Call α) (found : machine.calls[index]? = some call) :
    Quiet bound (machine.advance compare index call) := by
  have idle := quiet.pushes call (List.mem_of_getElem? found)
  cases call with
  | popWait =>
      by_cases permit : 0 < machine.permits
      · simp only [Machine.advance, if_pos permit]
        refine quiet.moved index _ .popLock found _ _ _ _ _ _ rfl ?_
        simp [Call.granted]
        omega
      · simp only [Machine.advance, if_neg permit]
        exact quiet
  | popLock =>
      cases free : machine.lock with
      | some holder =>
          simp only [Machine.advance, free]
          exact quiet
      | none =>
          simp only [Machine.advance, free]
          exact quiet.moved index _ .popTake found _ _ _ _ _ _ rfl
            (Nat.le_refl _)
  | popTake =>
      cases take : sortedListTake machine.list with
      | empty =>
          simp only [Machine.advance, take]
          exact quiet.moved index _ (.popUnlock none) found _ _ _ _ _ _ rfl
            (Nat.le_refl _)
      | node arg list =>
          simp only [Machine.advance, take]
          exact quiet.moved index _ (.popUnlock (some arg)) found _ _ _ _ _ _
            rfl (Nat.le_refl _)
      | broken =>
          simp only [Machine.advance, take]
          exact quiet
  | popUnlock arg =>
      exact quiet.moved index _ (.popDone arg) found _ _ _ _ _ _ rfl
        (Nat.le_refl _)
  | popTimeout => exact quiet
  | popDone arg => exact quiet
  | pushDone ok => exact quiet
  | _ => cases idle

theorem quiet_turn (compare : α → α → Int) (quiet : Quiet bound machine)
    (action : Action α) (noPush : ¬ action.isPush) :
    Quiet bound (Machine.turn compare machine action) := by
  rcases machine.turn_cases compare action with same |
    ⟨arg, timeout, isPush, _⟩ | ⟨_, turned⟩ | ⟨index, _, found, turned⟩ |
    ⟨index, call, _, found, turned⟩
  · rw [same]
    exact quiet
  · rw [isPush] at noPush
    exact absurd trivial noPush
  · rw [turned]
    exact {
      pushes := forall_concat _ _ _ quiet.pushes rfl
      permits := by
        have within := quiet.permits
        change machine.permits + (machine.calls ++ [Call.popWait]).countP _ ≤ bound
        rw [countP_concat]
        exact within }
  · rw [turned]
    exact quiet.moved index _ .popTimeout found _ _ _ _ _ _ rfl (Nat.le_refl _)
  · rw [turned]
    exact quiet_advance compare quiet index call found

theorem granted_of_served (call : Call α) (served : call.served = true) :
    call.granted = true := by
  cases call with
  | popDone arg => rfl
  | _ => cases served

/-- Without a push, pops complete only on the permits that there are. -/
theorem Quiet.served_le (compare : α → α → Int) (quiet : Quiet bound machine)
    (actions : List (Action α))
    (noPush : ∀ action ∈ actions, ¬ action.isPush) :
    popsDone (run (Machine.turn compare) machine actions) ≤ bound := by
  induction actions generalizing machine with
  | nil =>
      have served : popsDone machine ≤ machine.calls.countP Call.granted := by
        apply List.countP_mono_left
        intro call _ served
        exact granted_of_served call served
      have within := quiet.permits
      change popsDone machine ≤ bound
      omega
  | cons action rest ih =>
      apply ih (quiet_turn compare quiet action (noPush action
        List.mem_cons_self))
      intro other member
      exact noPush other (List.mem_cons_of_mem _ member)

end Quiet

/-- Two pushes and no pop: two messages are pending, and one pop can complete
at most. -/
theorem twoPushes_onePermit :
    let machine := run (Machine.turn fun _ _ => 0) (Machine.start 2 Nat)
      [.push 5 0, .go 0, .go 0, .go 0, .go 0,
        .push 3 0, .go 1, .go 1, .go 1, .go 1]
    machine.calls = [.pushDone true, .pushDone true] ∧ machine.pending = 2 ∧
      machine.permits = 1 ∧ ¬ Wakes (fun _ _ => 0) machine := by
  refine ⟨by decide, by decide, by decide, ?_⟩
  intro wakes
  have quiet : Quiet 1
      (run (Machine.turn fun _ _ => 0) (Machine.start 2 Nat)
        [.push 5 0, .go 0, .go 0, .go 0, .go 0,
          .push 3 0, .go 1, .go 1, .go 1, .go 1]) :=
    { pushes := by decide, permits := by decide }
  obtain ⟨actions, noPush, enough⟩ := wakes.enough (by decide)
  have most := quiet.served_le (fun _ _ => 0) actions noPush
  have two : 2 ≤ 1 := enough.trans most
  exact absurd two (by decide)

end XR872.SysCtrl
