/-
Computations that report events and can be cut short.

A computation changes a state and reports events in order. It returns a value
or it stops, and what follows a computation that stops never runs. What holds
of all events of a sequence is what holds of all events of its parts.
-/

import Mathlib

namespace XR872.Traces

variable {σ ε α β : Type}

structure Outcome (σ ε α : Type) where
  /-- `none` where the computation stopped. -/
  value : Option α
  state : σ
  events : List ε

def Traced (σ ε α : Type) : Type := σ → Outcome σ ε α

namespace Traced

instance : Monad (Traced σ ε) where
  pure value := fun state => { value := some value, state, events := [] }
  bind first next := fun state =>
    let done := first state
    match done.value with
    | none => { value := none, state := done.state, events := done.events }
    | some value =>
        let rest := next value done.state
        { rest with events := done.events ++ rest.events }

def get : Traced σ ε σ :=
  fun state => { value := some state, state, events := [] }

def update (change : σ → σ) : Traced σ ε Unit :=
  fun state => { value := some (), state := change state, events := [] }

def emit (event : ε) : Traced σ ε Unit :=
  fun state => { value := some (), state, events := [event] }

def stop : Traced σ ε α :=
  fun state => { value := none, state, events := [] }

/-! ### Runs of a sequence -/

@[simp] theorem pure_apply (value : α) (state : σ) :
    (pure value : Traced σ ε α) state =
      { value := some value, state, events := [] } := rfl

@[simp] theorem get_apply (state : σ) :
    (get : Traced σ ε σ) state =
      { value := some state, state, events := [] } := rfl

@[simp] theorem update_apply (change : σ → σ) (state : σ) :
    (update change : Traced σ ε Unit) state =
      { value := some (), state := change state, events := [] } := rfl

@[simp] theorem emit_apply (event : ε) (state : σ) :
    (emit event : Traced σ ε Unit) state =
      { value := some (), state, events := [event] } := rfl

@[simp] theorem stop_apply (state : σ) :
    (stop : Traced σ ε α) state = { value := none, state, events := [] } := rfl

theorem bind_apply (first : Traced σ ε α) (next : α → Traced σ ε β)
    (state : σ) :
    (first >>= next) state =
      match (first state).value with
      | none =>
          { value := none, state := (first state).state,
            events := (first state).events }
      | some value =>
          { value := (next value (first state).state).value
            state := (next value (first state).state).state
            events := (first state).events ++
              (next value (first state).state).events } := rfl

@[simp] theorem pure_bind_apply (value : α) (next : α → Traced σ ε β)
    (state : σ) : ((pure value : Traced σ ε α) >>= next) state = next value state :=
  rfl

@[simp] theorem get_bind_apply (next : σ → Traced σ ε β) (state : σ) :
    ((get : Traced σ ε σ) >>= next) state = next state state := rfl

@[simp] theorem update_bind_apply (change : σ → σ)
    (next : Unit → Traced σ ε β) (state : σ) :
    ((update change : Traced σ ε Unit) >>= next) state =
      next () (change state) := rfl

@[simp] theorem emit_bind_apply (event : ε) (next : Unit → Traced σ ε β)
    (state : σ) :
    ((emit event : Traced σ ε Unit) >>= next) state =
      { next () state with events := event :: (next () state).events } := rfl

@[simp] theorem ite_apply (condition : Prop) [Decidable condition]
    (yes no : Traced σ ε α) (state : σ) :
    (if condition then yes else no) state =
      if condition then yes state else no state := by
  split
  · rfl
  · rfl

theorem bind_returned (first : Traced σ ε α) (next : α → Traced σ ε β)
    (state after : σ) (value : α) (events : List ε)
    (run : first state = { value := some value, state := after, events }) :
    (first >>= next) state =
      { value := (next value after).value
        state := (next value after).state
        events := events ++ (next value after).events } := by
  rw [bind_apply, run]

theorem bind_stopped (first : Traced σ ε α) (next : α → Traced σ ε β)
    (state after : σ) (events : List ε)
    (run : first state = { value := none, state := after, events }) :
    (first >>= next) state = { value := none, state := after, events } := by
  rw [bind_apply, run]

theorem bind_inv (first : Traced σ ε α) (next : α → Traced σ ε β)
    (state : σ) (result : β)
    (returned : ((first >>= next) state).value = some result) :
    ∃ value, (first state).value = some value ∧
      (next value (first state).state).value = some result ∧
      ((first >>= next) state).state =
        (next value (first state).state).state := by
  rw [bind_apply] at returned ⊢
  cases early : (first state).value with
  | none =>
      rw [early] at returned
      cases returned
  | some value =>
      rw [early] at returned
      exact ⟨value, rfl, returned, rfl⟩

/-! ### What holds of every event -/

/-- Every event of the computation, run from the state, satisfies the
predicate. -/
def Within (inside : ε → Prop) (computation : Traced σ ε α) (state : σ) : Prop :=
  ∀ event ∈ (computation state).events, inside event

variable (inside : ε → Prop)

@[simp] theorem within_pure (value : α) (state : σ) :
    Within inside (pure value : Traced σ ε α) state := by
  intro event member
  cases member

@[simp] theorem within_get (state : σ) :
    Within inside (get : Traced σ ε σ) state := by
  intro event member
  cases member

@[simp] theorem within_update (change : σ → σ) (state : σ) :
    Within inside (update change : Traced σ ε Unit) state := by
  intro event member
  cases member

@[simp] theorem within_stop (state : σ) :
    Within inside (stop : Traced σ ε α) state := by
  intro event member
  cases member

@[simp] theorem within_emit (event : ε) (state : σ) :
    Within inside (emit event : Traced σ ε Unit) state ↔ inside event := by
  unfold Within
  simp

/-- The events of a sequence are those of its first part and, where that
returns, those of the rest. -/
theorem within_bind (first : Traced σ ε α) (next : α → Traced σ ε β)
    (state : σ) :
    Within inside (first >>= next) state ↔
      Within inside first state ∧
        ∀ value, (first state).value = some value →
          Within inside (next value) (first state).state := by
  unfold Within
  rw [bind_apply]
  cases returned : (first state).value with
  | none => simp
  | some value =>
      constructor
      · intro all
        constructor
        · intro event member
          exact all event (List.mem_append_left _ member)
        · intro other same event member
          cases same
          exact all event (List.mem_append_right _ member)
      · intro both event member
        rcases List.mem_append.mp member with early | late
        · exact both.1 event early
        · exact both.2 value rfl event late

theorem within_bind_returned (first : Traced σ ε α) (next : α → Traced σ ε β)
    (state after : σ) (value : α) (events : List ε)
    (run : first state = { value := some value, state := after, events }) :
    Within inside (first >>= next) state ↔
      (∀ event ∈ events, inside event) ∧ Within inside (next value) after := by
  rw [within_bind]
  unfold Within
  rw [run]
  simp

/-! ### What holds from every state -/

/-- Every event satisfies the predicate, whatever state the computation is run
from. -/
def Emits (inside : ε → Prop) (computation : Traced σ ε α) : Prop :=
  ∀ state, Within inside computation state

variable {inside}

theorem emits_pure (value : α) :
    Emits inside (pure value : Traced σ ε α) := within_pure inside value

theorem emits_get : Emits inside (get : Traced σ ε σ) := within_get inside

theorem emits_update (change : σ → σ) :
    Emits inside (update change : Traced σ ε Unit) :=
  within_update inside change

theorem emits_stop : Emits inside (stop : Traced σ ε α) := within_stop inside

theorem emits_emit (event : ε) (allowed : inside event) :
    Emits inside (emit event : Traced σ ε Unit) := by
  intro state
  exact (within_emit inside event state).mpr allowed

theorem emits_bind (first : Traced σ ε α) (next : α → Traced σ ε β)
    (early : Emits inside first) (late : ∀ value, Emits inside (next value)) :
    Emits inside (first >>= next) := by
  intro state
  rw [within_bind]
  constructor
  · exact early state
  · intro value _
    exact late value _

def Preserves {γ : Type} (view : σ → γ) (computation : Traced σ ε α) : Prop :=
  ∀ state, view (computation state).state = view state

variable {γ : Type} {view : σ → γ}

theorem preserves_pure (value : α) :
    Preserves view (pure value : Traced σ ε α) := by
  intro state
  rfl

theorem preserves_get : Preserves view (get : Traced σ ε σ) := by
  intro state
  rfl

theorem preserves_stop : Preserves view (stop : Traced σ ε α) := by
  intro state
  rfl

theorem preserves_emit (event : ε) :
    Preserves view (emit event : Traced σ ε Unit) := by
  intro state
  rfl

theorem preserves_bind (first : Traced σ ε α) (next : α → Traced σ ε β)
    (early : Preserves view first) (late : ∀ value, Preserves view (next value)) :
    Preserves view (first >>= next) := by
  intro state
  rw [bind_apply]
  cases (first state).value with
  | none => exact early state
  | some value => exact (late value _).trans (early state)

end Traced

end XR872.Traces
