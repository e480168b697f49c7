/-
A mutex that its holder can lock again.

It is free again when the holder has unlocked it as often as it locked it. Only
the holder unlocks it; an unlock by another task changes nothing.
-/

import Mathlib

namespace XR872.RecursiveMutexes

variable {τ : Type} [DecidableEq τ]

abbrev RecursiveMutex (τ : Type) := Option (τ × Nat)

namespace RecursiveMutex

/-- The task would get it without waiting. -/
def available (task : τ) : RecursiveMutex τ → Bool
  | none => true
  | some (holder, _) => decide (holder = task)

def lock (task : τ) : RecursiveMutex τ → RecursiveMutex τ
  | none => some (task, 0)
  | some (holder, again) =>
      if holder = task then some (holder, again + 1) else some (holder, again)

def unlock (task : τ) : RecursiveMutex τ → RecursiveMutex τ
  | none => none
  | some (holder, 0) => if holder = task then none else some (holder, 0)
  | some (holder, again + 1) =>
      if holder = task then some (holder, again) else some (holder, again + 1)

def depth (task : τ) : RecursiveMutex τ → Nat
  | none => 0
  | some (holder, again) => if holder = task then again + 1 else 0

theorem depth_lock_self (mutex : RecursiveMutex τ) (task : τ)
    (ready : available task mutex = true) :
    depth task (lock task mutex) = depth task mutex + 1 := by
  cases mutex with
  | none => simp [lock, depth]
  | some held =>
      have mine : held.1 = task := of_decide_eq_true ready
      simp [lock, depth, mine]

theorem depth_lock_other (mutex : RecursiveMutex τ) (task other : τ)
    (ready : available task mutex = true) (apart : other ≠ task) :
    depth other (lock task mutex) = depth other mutex := by
  cases mutex with
  | none => simp [lock, depth, apart.symm]
  | some held =>
      have mine : held.1 = task := of_decide_eq_true ready
      simp [lock, depth, mine, apart.symm]

theorem depth_unlock_self (mutex : RecursiveMutex τ) (task : τ) :
    depth task (unlock task mutex) = depth task mutex - 1 := by
  match mutex with
  | none => rfl
  | some (holder, 0) =>
      by_cases mine : holder = task <;> simp [unlock, depth, mine]
  | some (holder, again + 1) =>
      by_cases mine : holder = task <;> simp [unlock, depth, mine]

theorem depth_unlock_other (mutex : RecursiveMutex τ) (task other : τ)
    (apart : other ≠ task) :
    depth other (unlock task mutex) = depth other mutex := by
  match mutex with
  | none => rfl
  | some (holder, 0) =>
      by_cases mine : holder = task <;>
        simp [unlock, depth, mine, apart.symm]
  | some (holder, again + 1) =>
      by_cases mine : holder = task <;>
        simp [unlock, depth, mine, apart.symm]

theorem unlock_lock (mutex : RecursiveMutex τ) (task : τ)
    (ready : available task mutex = true) :
    unlock task (lock task mutex) = mutex := by
  cases mutex with
  | none => exact if_pos rfl
  | some held =>
      have mine : held.1 = task := of_decide_eq_true ready
      obtain ⟨holder, again⟩ := held
      subst mine
      simp [lock, unlock]

theorem held_of_not_available (mutex : RecursiveMutex τ) (task : τ)
    (waits : available task mutex = false) :
    depth task mutex = 0 ∧ ∃ other, other ≠ task ∧ 0 < depth other mutex := by
  cases mutex with
  | none => cases waits
  | some held =>
      have apart : held.1 ≠ task := of_decide_eq_false waits
      refine ⟨by simp [depth, apart], held.1, apart, ?_⟩
      simp [depth]

theorem lock_ne_none (mutex : RecursiveMutex τ) (task : τ) :
    lock task mutex ≠ none := by
  cases mutex with
  | none => simp [lock]
  | some held =>
      by_cases mine : held.1 = task <;> simp [lock, mine]

theorem ne_none_of_unlock (mutex : RecursiveMutex τ) (task : τ)
    (held : unlock task mutex ≠ none) : mutex ≠ none := by
  rintro rfl
  exact held rfl

end RecursiveMutex

end XR872.RecursiveMutexes
