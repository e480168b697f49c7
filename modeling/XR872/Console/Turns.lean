/-
The two buffers of the console take turns.

The n-th command line is in the buffer n modulo 2. How many lines were
accepted, picked and given back says which buffer is being filled, ready, being
executed or free, and how many permits the semaphore has.
-/

import XR872.Console.Console

namespace XR872.Console

open BitView
open Runs

inductive Role where
  | filling
  | ready
  | executing
  | free
deriving DecidableEq, Repr

def TaskCode.inHand : TaskCode → Option Nat
  | .cmdExec cmdBufIdx => some cmdBufIdx
  | .setLast cmdBufIdx => some cmdBufIdx
  | .giveBack cmdBufIdx => some cmdBufIdx
  | _ => none

def ConsolePriv.Has (c : ConsolePriv) (bufIdx : Nat) : Role → Prop
  | .filling => c.rxBufIdx = bufIdx
  | .ready => c.readyBufBitmap bufIdx = true
  | .executing => c.task.inHand = some bufIdx
  | .free => c.freeBufBitmap bufIdx = true

theorem consoleGetValidBufIdx_next (bitmap : Nat → Bool) (lastIdx : Nat)
    (valid : bitmap ((lastIdx + 1) % 2) = true) :
    consoleGetValidBufIdx bitmap lastIdx =
      (Function.update bitmap ((lastIdx + 1) % 2) false, (lastIdx + 1) % 2) :=
  if_pos valid

theorem consoleGetValidBufIdx_none (bitmap : Nat → Bool) (lastIdx : Nat)
    (none : ∀ idx, bitmap idx = false) :
    consoleGetValidBufIdx bitmap lastIdx = (bitmap, 2) := by
  unfold consoleGetValidBufIdx consoleCmdLineBufNum getValidFrom getValidFrom
    getValidFrom
  dsimp only
  rw [none, none]
  rfl

/-! ### The count of turns -/

def TaskCode.picked (executed : Nat) : TaskCode → Nat
  | .cmdExec _ => executed + 1
  | _ => executed

def TaskCode.givenBack (executed : Nat) : TaskCode → Nat
  | .setLast _ => executed - 1
  | .giveBack _ => executed - 1
  | _ => executed

def TaskCode.permit : TaskCode → Nat
  | .stateCheck => 1
  | .getReady => 1
  | .exited => 1
  | _ => 0

/-- How many lines the task has set `last_cmd_buf_idx` for. -/
def TaskCode.lastSet (executed : Nat) : TaskCode → Nat
  | .setLast _ => executed - 1
  | _ => executed

structure Turning (free ready : Nat → Bool) (last rx sem : Nat)
    (task : TaskCode) (accepted executed : Nat) : Prop where
  picked_le : task.picked executed ≤ accepted
  accepted_le : accepted ≤ task.givenBack executed + 2
  behind : task.inHand.isSome →
    task.picked executed = task.givenBack executed + 1
  rxBufIdx : rx = if accepted < task.givenBack executed + 2 then accepted % 2
    else 2
  isReady : ∀ idx, ready idx = true ↔
    ∃ turn, task.picked executed ≤ turn ∧ turn < accepted ∧ idx = turn % 2
  isFree : ∀ idx, free idx = true ↔
    accepted = task.givenBack executed ∧ idx = (accepted + 1) % 2
  hand : ∀ idx, task.inHand = some idx → idx = task.givenBack executed % 2
  lastSet : last = (task.lastSet executed + 1) % 2
  permits : sem + task.permit = accepted - task.picked executed

namespace Turning

variable {free ready : Nat → Bool} {last rx sem : Nat} {task : TaskCode}
  {accepted executed : Nat}

theorem picked_or (turning : Turning free ready last rx sem task accepted
    executed) :
    (task.inHand = none ∧
        task.picked executed = task.givenBack executed) ∨
      (task.inHand.isSome ∧
        task.picked executed = task.givenBack executed + 1) := by
  cases task with
  | cmdExec idx => exact .inr ⟨rfl, turning.behind rfl⟩
  | setLast idx => exact .inr ⟨rfl, turning.behind rfl⟩
  | giveBack idx => exact .inr ⟨rfl, turning.behind rfl⟩
  | _ => exact .inl ⟨rfl, rfl⟩

theorem accept (turning : Turning free ready last rx sem task accepted
    executed) (filling : rx < 2) :
    Turning (consoleGetValidBufIdx free rx).1 (Function.update ready rx true)
      last (consoleGetValidBufIdx free rx).2 (sem + 1) task (accepted + 1)
      executed := by
  have room : accepted < task.givenBack executed + 2 := by
    by_contra full
    rw [turning.rxBufIdx, if_neg full] at filling
    omega
  have isRx : rx = accepted % 2 := by
    rw [turning.rxBufIdx, if_pos room]
  have picked := turning.picked_le
  have either := turning.picked_or
  have next : (∀ idx, (consoleGetValidBufIdx free rx).1 idx = false) ∧
      (consoleGetValidBufIdx free rx).2 =
        if accepted + 1 < task.givenBack executed + 2 then (accepted + 1) % 2
        else 2 := by
    by_cases empty : accepted = task.givenBack executed
    · have isFree := (turning.isFree ((rx + 1) % 2)).mpr ⟨empty, by omega⟩
      rw [consoleGetValidBufIdx_next free rx isFree, if_pos (by omega)]
      refine ⟨?_, by omega⟩
      intro idx
      by_cases here : idx = (rx + 1) % 2
      · rw [here]
        exact Function.update_self ..
      · change Function.update free ((rx + 1) % 2) false idx = false
        rw [Function.update_of_ne here]
        apply Bool.eq_false_iff.mpr
        intro other
        have place := ((turning.isFree idx).mp other).2
        omega
    · have none : ∀ idx, free idx = false := by
        intro idx
        apply Bool.eq_false_iff.mpr
        intro isFree
        exact empty ((turning.isFree idx).mp isFree).1
      rw [consoleGetValidBufIdx_none free rx none, if_neg (by omega)]
      exact ⟨none, rfl⟩
  refine ⟨by omega, by omega, turning.behind, next.2, ?_, ?_, turning.hand,
    turning.lastSet, ?_⟩
  · intro idx
    by_cases here : idx = rx
    · rw [here, Function.update_self]
      exact iff_of_true rfl ⟨accepted, picked, Nat.lt_succ_self _, isRx⟩
    · rw [Function.update_of_ne here, turning.isReady]
      constructor
      · rintro ⟨turn, from_, before, place⟩
        exact ⟨turn, from_, by omega, place⟩
      · rintro ⟨turn, from_, before, place⟩
        refine ⟨turn, from_, ?_, place⟩
        by_contra last
        have same : turn = accepted := by omega
        subst same
        omega
  · intro idx
    rw [next.1 idx]
    constructor
    · intro isFree
      cases isFree
    · intro isFree
      omega
  · have permits := turning.permits
    omega

theorem wake (turning : Turning free ready last rx sem .semaphoreWait accepted
    executed) (permit : sem ≠ 0) :
    Turning free ready last rx (sem - 1) .stateCheck accepted executed where
  picked_le := turning.picked_le
  accepted_le := turning.accepted_le
  behind := turning.behind
  rxBufIdx := turning.rxBufIdx
  isReady := turning.isReady
  isFree := turning.isFree
  hand := turning.hand
  lastSet := turning.lastSet
  permits := by
    have permits := turning.permits
    change sem - 1 + 1 = accepted - executed
    change sem + 0 = accepted - executed at permits
    omega

theorem check (turning : Turning free ready last rx sem .stateCheck accepted
    executed) :
    Turning free ready last rx sem .getReady accepted executed where
  picked_le := turning.picked_le
  accepted_le := turning.accepted_le
  behind := turning.behind
  rxBufIdx := turning.rxBufIdx
  isReady := turning.isReady
  isFree := turning.isFree
  hand := turning.hand
  lastSet := turning.lastSet
  permits := turning.permits

theorem leave (turning : Turning free ready last rx sem .stateCheck accepted
    executed) :
    Turning free ready last rx sem .exited accepted executed where
  picked_le := turning.picked_le
  accepted_le := turning.accepted_le
  behind := turning.behind
  rxBufIdx := turning.rxBufIdx
  isReady := turning.isReady
  isFree := turning.isFree
  hand := turning.hand
  lastSet := turning.lastSet
  permits := turning.permits

theorem pick (turning : Turning free ready last rx sem .getReady accepted
    executed) :
    consoleGetValidBufIdx ready last =
      (Function.update ready (executed % 2) false, executed % 2) := by
  have permits := turning.permits
  change sem + 1 = accepted - executed at permits
  have isLast : (last + 1) % 2 = executed % 2 := by
    rw [turning.lastSet]
    change ((executed + 1) % 2 + 1) % 2 = _
    omega
  have isReady := (turning.isReady (executed % 2)).mpr
    ⟨executed, Nat.le_refl _, by omega, rfl⟩
  rw [← isLast] at isReady ⊢
  exact consoleGetValidBufIdx_next ready last isReady

theorem getReady (turning : Turning free ready last rx sem .getReady accepted
    executed) :
    Turning free (Function.update ready (executed % 2) false) last rx sem
      (.cmdExec (executed % 2)) accepted executed where
  picked_le := by
    have permits := turning.permits
    change sem + 1 = accepted - executed at permits
    change executed + 1 ≤ accepted
    omega
  accepted_le := turning.accepted_le
  behind := fun _ => rfl
  rxBufIdx := turning.rxBufIdx
  isReady := by
    have bound : accepted ≤ executed + 2 := turning.accepted_le
    intro idx
    by_cases here : idx = executed % 2
    · rw [here, Function.update_self]
      apply iff_of_false Bool.false_ne_true
      rintro ⟨turn, from_, before, place⟩
      change executed + 1 ≤ turn at from_
      omega
    · rw [Function.update_of_ne here, turning.isReady]
      constructor
      · rintro ⟨turn, from_, before, place⟩
        change executed ≤ turn at from_
        refine ⟨turn, ?_, before, place⟩
        change executed + 1 ≤ turn
        by_contra first
        have same : turn = executed := by omega
        exact here (same ▸ place)
      · rintro ⟨turn, from_, before, place⟩
        change executed + 1 ≤ turn at from_
        exact ⟨turn, Nat.le_of_succ_le from_, before, place⟩
  isFree := turning.isFree
  hand := by
    intro idx inHand
    exact (Option.some.inj inHand).symm
  lastSet := turning.lastSet
  permits := by
    have permits := turning.permits
    change sem + 1 = accepted - executed at permits
    change sem + 0 = accepted - (executed + 1)
    omega

theorem cmdExec {idx : Nat} (turning : Turning free ready last rx sem
    (.cmdExec idx) accepted executed) :
    Turning free ready last rx sem (.setLast idx) accepted (executed + 1) where
  picked_le := turning.picked_le
  accepted_le := turning.accepted_le
  behind := turning.behind
  rxBufIdx := turning.rxBufIdx
  isReady := turning.isReady
  isFree := turning.isFree
  hand := turning.hand
  lastSet := turning.lastSet
  permits := turning.permits

theorem setLast {idx : Nat} (turning : Turning free ready last rx sem
    (.setLast idx) accepted executed) :
    Turning free ready idx rx sem (.giveBack idx) accepted executed where
  picked_le := turning.picked_le
  accepted_le := turning.accepted_le
  behind := turning.behind
  rxBufIdx := turning.rxBufIdx
  isReady := turning.isReady
  isFree := turning.isFree
  hand := turning.hand
  lastSet := by
    have behind : executed = executed - 1 + 1 := turning.behind rfl
    have hand : idx = (executed - 1) % 2 := turning.hand idx rfl
    change idx = (executed + 1) % 2
    omega
  permits := turning.permits

/-- The buffer in hand goes straight back to the interrupt, if that has none,
and to the free ones otherwise. -/
theorem giveBack {idx : Nat} (turning : Turning free ready last rx sem
    (.giveBack idx) accepted executed) :
    (rx = 2 → Turning free ready last idx sem .semaphoreWait accepted
        executed) ∧
      (rx ≠ 2 → Turning (Function.update free idx true) ready last rx sem
        .semaphoreWait accepted executed) := by
  have behind : executed = executed - 1 + 1 := turning.behind rfl
  have hand : idx = (executed - 1) % 2 := turning.hand idx rfl
  have picked : executed ≤ accepted := turning.picked_le
  have room : accepted ≤ executed - 1 + 2 := turning.accepted_le
  have isRx : rx = if accepted < executed - 1 + 2 then accepted % 2 else 2 :=
    turning.rxBufIdx
  have isFree : ∀ idx, free idx = true ↔
      accepted = executed - 1 ∧ idx = (accepted + 1) % 2 := turning.isFree
  constructor
  · intro without
    have full : ¬ accepted < executed - 1 + 2 := by
      intro room
      rw [if_pos room] at isRx
      omega
    refine ⟨picked, (by change accepted ≤ executed + 2; omega),
      (fun some => by cases some), ?_, turning.isReady, ?_,
      (fun idx some => by cases some), turning.lastSet, turning.permits⟩
    · change idx = if accepted < executed + 2 then accepted % 2 else 2
      rw [if_pos (by omega)]
      omega
    · intro idx
      rw [isFree]
      change _ ↔ accepted = executed ∧ _
      omega
  · intro filling
    have single : accepted < executed - 1 + 2 := by
      by_contra full
      exact filling (isRx.trans (if_neg full))
    rw [if_pos single] at isRx
    refine ⟨picked, (by change accepted ≤ executed + 2; omega),
      (fun some => by cases some), ?_, turning.isReady, ?_,
      (fun idx some => by cases some), turning.lastSet, turning.permits⟩
    · change rx = if accepted < executed + 2 then accepted % 2 else 2
      rw [if_pos (by omega), isRx]
    · intro other
      change _ ↔ accepted = executed ∧ _
      by_cases here : other = idx
      · rw [here, Function.update_self]
        exact iff_of_true rfl ⟨by omega, by omega⟩
      · rw [Function.update_of_ne here, isFree]
        omega

end Turning

end XR872.Console
