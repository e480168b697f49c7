/-
Pushes and pops that overlap.

Every call is somewhere between its start and its return. A turn lets one call
pass its next lock or semaphore operation, or the work it does between two of
them; a call that has to wait is not changed by its turn.
-/

import XR872.Library.Run
import XR872.SysCtrl.Container

namespace XR872.SysCtrl

open Circles
open Runs

variable {size : Nat} {α : Type}

def blockWaitEachTime : Nat := 3

/-- Where a call of `sorted_list_push` or `sorted_list_pop` stands. -/
inductive Call (α : Type) where
  /-- Before `OS_MutexLock`. -/
  | pushLock (arg : α) (timeout : Nat)
  /-- Locked, before the look at the pool. -/
  | pushCheck (arg : α) (timeout : Nat)
  /-- Unlocked, in `OS_MSleep`. -/
  | pushSleep (arg : α) (timeout : Nat)
  /-- The node is inserted, the semaphore not yet released. -/
  | pushRelease
  | pushUnlock
  /-- Returned: 0, or -1 after the timeout. -/
  | pushDone (ok : Bool)
  | popWait
  /-- With a permit, before `OS_MutexLock`. -/
  | popLock
  | popTake
  | popUnlock (arg : Option α)
  /-- The wait timed out: -1. -/
  | popTimeout
  /-- Returned: 0 with an argument, or -2 for the list found empty. -/
  | popDone (arg : Option α)
deriving DecidableEq

structure Machine (size : Nat) (α : Type) where
  list : SortedList size α
  /-- The call that holds the lock. -/
  lock : Option Nat
  /-- The count of the semaphore. -/
  permits : Nat
  calls : List (Call α)
  /-- The arguments inserted into the list so far. -/
  inserted : Nat
  /-- The arguments taken from the list so far. -/
  taken : Nat
  /-- How many arguments were pending whenever a push found the pool empty. -/
  fullAt : List Nat

inductive Action (α : Type) where
  | push (arg : α) (timeout : Nat)
  | pop
  /-- The turn of a call. -/
  | go (call : Nat)
  /-- The wait of a call for the semaphore times out. -/
  | expire (call : Nat)

def Action.isPush : Action α → Prop
  | .push _ _ => True
  | _ => False

namespace Machine

def start (size : Nat) (α : Type) [Zero α] : Machine size α :=
  { list := sortedListInit size α, lock := none, permits := 0, calls := [],
    inserted := 0, taken := 0, fullAt := [] }

def put (machine : Machine size α) (index : Nat) (call : Call α) :
    Machine size α :=
  { machine with calls := machine.calls.set index call }

/-- The messages in the list that no pop has taken. -/
def pending (machine : Machine size α) : Nat := machine.inserted - machine.taken

/-- `OS_SemaphoreRelease` on a semaphore that `OS_SemaphoreCreateBinary` made:
at the count 1 it fails, and the caller does not look. -/
def release (permits : Nat) : Nat := min (permits + 1) 1

def advance (compare : α → α → Int) (machine : Machine size α) (index : Nat) :
    Call α → Machine size α
  | .pushLock arg timeout =>
      match machine.lock with
      | none => { machine.put index (.pushCheck arg timeout) with lock := some index }
      | some _ => machine
  | .pushCheck arg timeout =>
      if sortedListRoom machine.list then
        match sortedListInsert compare machine.list arg with
        | some list =>
            { machine.put index .pushRelease with
              list
              inserted := machine.inserted + 1 }
        | none => machine
      else
        { machine.put index (.pushSleep arg timeout) with
          lock := none
          fullAt := machine.fullAt ++ [machine.pending] }
  | .pushSleep arg timeout =>
      if timeout ≤ blockWaitEachTime then machine.put index (.pushDone false)
      else machine.put index (.pushLock arg (timeout - blockWaitEachTime))
  | .pushRelease =>
      { machine.put index .pushUnlock with permits := release machine.permits }
  | .pushUnlock => { machine.put index (.pushDone true) with lock := none }
  | .pushDone _ => machine
  | .popWait =>
      if 0 < machine.permits then
        { machine.put index .popLock with permits := machine.permits - 1 }
      else machine
  | .popLock =>
      match machine.lock with
      | none => { machine.put index .popTake with lock := some index }
      | some _ => machine
  | .popTake =>
      match sortedListTake machine.list with
      | .empty => machine.put index (.popUnlock none)
      | .node arg list =>
          { machine.put index (.popUnlock (some arg)) with
            list
            taken := machine.taken + 1 }
      | .broken => machine
  | .popUnlock arg => { machine.put index (.popDone arg) with lock := none }
  | .popTimeout => machine
  | .popDone _ => machine

/-- A wait times out only while there is no permit. -/
def timeOut (machine : Machine size α) (index : Nat) :
    Call α → Machine size α
  | .popWait =>
      if machine.permits = 0 then machine.put index .popTimeout else machine
  | _ => machine

def turn (compare : α → α → Int) (machine : Machine size α) :
    Action α → Machine size α
  | .push arg timeout =>
      { machine with calls := machine.calls ++ [.pushLock arg timeout] }
  | .pop => { machine with calls := machine.calls ++ [.popWait] }
  | .go index =>
      match machine.calls[index]? with
      | none => machine
      | some call => advance compare machine index call
  | .expire index =>
      match machine.calls[index]? with
      | none => machine
      | some call => timeOut machine index call

variable (compare : α → α → Int) (machine : Machine size α)

theorem turn_go (index : Nat) (call : Call α)
    (found : machine.calls[index]? = some call) :
    turn compare machine (.go index) = advance compare machine index call := by
  unfold turn
  simp only [found]

/-- What a turn can be: nothing, a call that begins, a wait that times out, or a
call that moves on. -/
theorem turn_cases (action : Action α) :
    turn compare machine action = machine ∨
      (∃ arg timeout, action = .push arg timeout ∧
        turn compare machine action =
          { machine with calls := machine.calls ++ [.pushLock arg timeout] }) ∨
      (action = .pop ∧
        turn compare machine action =
          { machine with calls := machine.calls ++ [.popWait] }) ∨
      (∃ index, action = .expire index ∧
        machine.calls[index]? = some .popWait ∧
        turn compare machine action = machine.put index .popTimeout) ∨
      ∃ index call, action = .go index ∧ machine.calls[index]? = some call ∧
        turn compare machine action = advance compare machine index call := by
  cases action with
  | push arg timeout => exact Or.inr (Or.inl ⟨arg, timeout, rfl, rfl⟩)
  | pop => exact Or.inr (Or.inr (Or.inl ⟨rfl, rfl⟩))
  | go index =>
      cases found : machine.calls[index]? with
      | none =>
          refine Or.inl ?_
          unfold turn
          simp only [found]
      | some call =>
          exact Or.inr (Or.inr (Or.inr (Or.inr ⟨index, call, rfl, found,
            turn_go compare machine index call found⟩)))
  | expire index =>
      cases found : machine.calls[index]? with
      | none =>
          refine Or.inl ?_
          unfold turn
          simp only [found]
      | some call =>
          have turned : turn compare machine (.expire index) =
              timeOut machine index call := by
            unfold turn
            simp only [found]
          rw [turned]
          cases call with
          | popWait =>
              by_cases zero : machine.permits = 0
              · exact Or.inr (Or.inr (Or.inr (Or.inl
                  ⟨index, rfl, found, if_pos zero⟩)))
              · exact Or.inl (if_neg zero)
          | _ => exact Or.inl rfl

end Machine

/-! ### Lists of calls -/

theorem forall_concat (holds : Call α → Prop) (calls : List (Call α))
    (call : Call α) (old : ∀ other ∈ calls, holds other) (new : holds call) :
    ∀ other ∈ calls ++ [call], holds other := by
  intro other member
  rcases List.mem_append.mp member with before | single
  · exact old other before
  · rw [List.mem_singleton.mp single]
    exact new

theorem forall_set (holds : Call α → Prop) (calls : List (Call α)) (index : Nat)
    (call : Call α) (old : ∀ other ∈ calls, holds other) (new : holds call) :
    ∀ other ∈ calls.set index call, holds other := by
  intro other member
  rcases List.mem_or_eq_of_mem_set member with before | same
  · exact old other before
  · rw [same]
    exact new

end XR872.SysCtrl
