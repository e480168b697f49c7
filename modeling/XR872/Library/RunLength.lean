/-
Run-length streams.

A stream of items, each a level that is held for a time. Neighbours of one level
make a run. What adds up times of one level does not see how a run was cut.
-/

import Mathlib

namespace XR872.RunLengths

variable {κ : Type}

/-- All times multiplied. -/
def scale (factor : Nat) (items : List (κ × Nat)) : List (κ × Nat) :=
  items.map fun item => (item.1, factor * item.2)

theorem scale_one (items : List (κ × Nat)) : scale 1 items = items := by
  unfold scale
  simp

theorem scale_append (factor : Nat) (first second : List (κ × Nat)) :
    scale factor (first ++ second) =
      scale factor first ++ scale factor second :=
  List.map_append

section

variable {σ : Type} (step : σ → κ → Nat → σ)

/-- Two times of one level are taken like their sum. -/
def Additive : Prop :=
  ∀ state level first second,
    step (step state level first) level second =
      step state level (first + second)

def takeAll (state : σ) (items : List (κ × Nat)) : σ :=
  items.foldl (fun state item => step state item.1 item.2) state

@[simp] theorem takeAll_nil (state : σ) : takeAll step state [] = state := rfl

@[simp] theorem takeAll_cons (state : σ) (level : κ) (time : Nat)
    (rest : List (κ × Nat)) :
    takeAll step state ((level, time) :: rest) =
      takeAll step (step state level time) rest := rfl

theorem takeAll_append (state : σ) (first second : List (κ × Nat)) :
    takeAll step state (first ++ second) =
      takeAll step (takeAll step state first) second :=
  List.foldl_append ..

theorem takeAll_scale (factor : Nat) (items : List (κ × Nat)) (state : σ) :
    takeAll step state (scale factor items) =
      takeAll (fun state level time => step state level (factor * time)) state
        items :=
  List.foldl_map ..

variable {step}

theorem additive_scale (additive : Additive step) (factor : Nat) :
    Additive fun state level time => step state level (factor * time) := by
  intro state level first second
  dsimp only
  rw [additive, Nat.mul_add]

end

section

variable [DecidableEq κ] {σ : Type} {step : σ → κ → Nat → σ}

/-- Neighbours of one level put together. -/
def runs : List (κ × Nat) → List (κ × Nat)
  | [] => []
  | (level, time) :: rest =>
      match runs rest with
      | [] => [(level, time)]
      | (next, more) :: others =>
          if level = next then (level, time + more) :: others
          else (level, time) :: (next, more) :: others

theorem runs_alternate (items : List (κ × Nat)) :
    (runs items).IsChain fun left right => left.1 ≠ right.1 := by
  induction items with
  | nil => exact List.IsChain.nil
  | cons item rest ih =>
      obtain ⟨level, time⟩ := item
      rw [runs]
      generalize runs rest = merged at ih
      cases merged with
      | nil => exact List.IsChain.singleton _
      | cons head others =>
          obtain ⟨next, more⟩ := head
          dsimp only
          by_cases same : level = next
          · rw [if_pos same, same]
            cases others with
            | nil => exact List.IsChain.singleton _
            | cons second others =>
                rw [List.isChain_cons_cons] at ih ⊢
                exact ih
          · rw [if_neg same, List.isChain_cons_cons]
            exact ⟨same, ih⟩

theorem takeAll_runs (additive : Additive step) (items : List (κ × Nat))
    (state : σ) :
    takeAll step state (runs items) = takeAll step state items := by
  induction items generalizing state with
  | nil => rfl
  | cons item rest ih =>
      obtain ⟨level, time⟩ := item
      rw [takeAll_cons, ← ih (step state level time)]
      rw [runs]
      generalize runs rest = merged
      cases merged with
      | nil => rfl
      | cons head others =>
          obtain ⟨next, more⟩ := head
          dsimp only
          by_cases same : level = next
          · rw [if_pos same, ← same, takeAll_cons, takeAll_cons, additive]
          · rw [if_neg same, takeAll_cons]

/-- What adds up times takes a stream that was cut anew, and has all its times
multiplied, as it takes the stream. -/
theorem takeAll_recut (additive : Additive step) (factor : Nat)
    (items recut : List (κ × Nat))
    (same : runs recut = scale factor (runs items)) (state : σ) :
    takeAll step state recut = takeAll step state (scale factor items) := by
  rw [← takeAll_runs additive, same, takeAll_scale, takeAll_scale,
    takeAll_runs (additive_scale additive factor)]

end

end XR872.RunLengths
