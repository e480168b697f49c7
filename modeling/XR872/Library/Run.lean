/-
Runs of a deterministic step function.

A run is a list of inputs. A property of reached states is followed along the
run; when each step keeps it exactly if the step is clean, it holds throughout
the run exactly if all steps are clean.
-/

import Mathlib

namespace XR872.Runs

variable {σ ι : Type} (step : σ → ι → σ)

/-- The state a run ends in. -/
def run (start : σ) (inputs : List ι) : σ := inputs.foldl step start

@[simp] theorem run_nil (start : σ) : run step start [] = start := rfl

@[simp] theorem run_cons (start : σ) (input : ι) (rest : List ι) :
    run step start (input :: rest) = run step (step start input) rest := rfl

theorem run_append (start : σ) (first second : List ι) :
    run step start (first ++ second) = run step (run step start first) second :=
  List.foldl_append ..

theorem run_concat (start : σ) (inputs : List ι) (last : ι) :
    run step start (inputs ++ [last]) = step (run step start inputs) last := by
  rw [run_append]
  rfl

/-- Every step of the run is made from a state, and on an input, that is
clean. -/
def Along (clean : σ → ι → Prop) : σ → List ι → Prop
  | _, [] => True
  | start, input :: rest =>
      clean start input ∧ Along clean (step start input) rest

instance instDecidableAlong (clean : σ → ι → Prop)
    [∀ state input, Decidable (clean state input)] (start : σ)
    (inputs : List ι) : Decidable (Along step clean start inputs) :=
  match inputs with
  | [] => isTrue trivial
  | input :: rest =>
      haveI := instDecidableAlong clean (step start input) rest
      inferInstanceAs (Decidable (clean start input ∧
        Along step clean (step start input) rest))

/-- The property holds in every state the run reaches, the first one
included. -/
def Always (property : σ → Prop) (start : σ) (inputs : List ι) : Prop :=
  ∀ seen, seen <+: inputs → property (run step start seen)

variable {step}

theorem along_append (clean : σ → ι → Prop) (start : σ)
    (first second : List ι) :
    Along step clean start (first ++ second) ↔
      Along step clean start first ∧
        Along step clean (run step start first) second := by
  induction first generalizing start with
  | nil => exact (iff_of_eq (true_and _)).symm
  | cons input rest ih =>
      change _ ∧ Along step clean _ (rest ++ second) ↔ (_ ∧ _) ∧ _
      rw [ih, and_assoc, run_cons]

theorem along_and (left right : σ → ι → Prop) (start : σ) (inputs : List ι) :
    Along step (fun state input => left state input ∧ right state input) start
        inputs ↔
      Along step left start inputs ∧ Along step right start inputs := by
  induction inputs generalizing start with
  | nil => exact (iff_of_eq (true_and _)).symm
  | cons input rest ih =>
      change (_ ∧ _) ∧ Along step _ _ rest ↔ (_ ∧ _) ∧ (_ ∧ _)
      rw [ih, and_and_and_comm]

/-- What is the same for one step under an invariant is the same for a run. -/
theorem along_iff_along (left right : σ → ι → Prop) (invariant : σ → Prop)
    (kept : ∀ state input, invariant state → invariant (step state input))
    (same : ∀ state input, invariant state →
      (left state input ↔ right state input))
    (start : σ) (initially : invariant start) (inputs : List ι) :
    Along step left start inputs ↔ Along step right start inputs := by
  induction inputs generalizing start with
  | nil => exact Iff.rfl
  | cons input rest ih =>
      exact and_congr (same start input initially)
        (ih (step start input) (kept start input initially))

/-- As `along_iff_along`, where only the steps on the right keep the
invariant. -/
theorem along_iff_along_of_kept (left right : σ → ι → Prop)
    (invariant : σ → Prop)
    (kept : ∀ state input, invariant state → right state input →
      invariant (step state input))
    (same : ∀ state input, invariant state →
      (left state input ↔ right state input))
    (start : σ) (initially : invariant start) (inputs : List ι) :
    Along step left start inputs ↔ Along step right start inputs := by
  induction inputs generalizing start with
  | nil => exact Iff.rfl
  | cons input rest ih =>
      refine (and_congr_left' (same start input initially)).trans ?_
      refine and_congr_right fun clean => ?_
      exact ih (step start input) (kept start input initially clean)

/-- As `along_iff_along_of_kept`, for runs of inputs that are given to be of
some kind. -/
theorem along_iff_along_of_given (given left right : σ → ι → Prop)
    (invariant : σ → Prop)
    (kept : ∀ state input, invariant state → given state input →
      right state input → invariant (step state input))
    (same : ∀ state input, invariant state → given state input →
      (left state input ↔ right state input))
    (start : σ) (initially : invariant start) (inputs : List ι)
    (all : Along step given start inputs) :
    Along step left start inputs ↔ Along step right start inputs := by
  induction inputs generalizing start with
  | nil => exact Iff.rfl
  | cons input rest ih =>
      refine (and_congr_left' (same start input initially all.1)).trans ?_
      refine and_congr_right fun clean => ?_
      exact ih (step start input) (kept start input initially all.1 clean) all.2

/-- Under an invariant that steps of one kind keep, a run of steps of that kind
is a run of steps of another. -/
theorem along_of_along (left right : σ → ι → Prop) (invariant : σ → Prop)
    (kept : ∀ state input, invariant state → right state input →
      invariant (step state input))
    (implies : ∀ state input, invariant state → right state input →
      left state input)
    (start : σ) (initially : invariant start) (inputs : List ι)
    (along : Along step right start inputs) : Along step left start inputs := by
  induction inputs generalizing start with
  | nil => trivial
  | cons input rest ih =>
      exact ⟨implies start input initially along.1,
        ih (step start input) (kept start input initially along.1) along.2⟩

theorem always_nil (property : σ → Prop) (start : σ) :
    Always step property start [] ↔ property start := by
  constructor
  · intro always
    exact always [] List.prefix_rfl
  · intro now seen reached
    rw [List.prefix_nil.mp reached]
    exact now

theorem always_cons (property : σ → Prop) (start : σ) (input : ι)
    (rest : List ι) :
    Always step property start (input :: rest) ↔
      property start ∧ Always step property (step start input) rest := by
  constructor
  · intro always
    refine ⟨always [] List.nil_prefix, ?_⟩
    intro seen reached
    exact always (input :: seen) (List.cons_prefix_cons.mpr ⟨rfl, reached⟩)
  · rintro ⟨now, later⟩ seen reached
    cases seen with
    | nil => exact now
    | cons head tail =>
        obtain ⟨same, within⟩ := List.cons_prefix_cons.mp reached
        subst same
        exact later tail within

theorem run_invariant (invariant : σ → Prop)
    (kept : ∀ state input, invariant state → invariant (step state input))
    (start : σ) (initially : invariant start) (inputs : List ι) :
    invariant (run step start inputs) := by
  induction inputs generalizing start with
  | nil => exact initially
  | cons input rest ih => exact ih (step start input) (kept start input initially)

/-- A property that every clean step keeps holds throughout a run whose steps
are all clean. -/
theorem always_of_along (property : σ → Prop) (clean : σ → ι → Prop)
    (kept : ∀ state input, property state → clean state input →
      property (step state input))
    (start : σ) (initially : property start) (inputs : List ι)
    (along : Along step clean start inputs) :
    Always step property start inputs := by
  induction inputs generalizing start with
  | nil => exact (always_nil property start).mpr initially
  | cons input rest ih =>
      exact (always_cons property start input rest).mpr
        ⟨initially, ih _ (kept start input initially along.1) along.2⟩

theorem always_imp (strong weak : σ → Prop)
    (weaker : ∀ state, strong state → weak state) (start : σ)
    (inputs : List ι) (always : Always step strong start inputs) :
    Always step weak start inputs :=
  fun seen reached => weaker _ (always seen reached)

/-- A property that never comes back holds throughout exactly if it holds at
the end. -/
theorem always_iff_run (property : σ → Prop)
    (lost : ∀ state input, ¬ property state → ¬ property (step state input))
    (start : σ) (inputs : List ι) :
    Always step property start inputs ↔ property (run step start inputs) := by
  constructor
  · intro always
    exact always inputs List.prefix_rfl
  · rintro last seen ⟨rest, rfl⟩
    by_contra broken
    rw [run_append] at last
    exact run_invariant (fun state => ¬ property state) lost _ broken rest last

/-- When a step keeps the property exactly if it is clean, the property holds
throughout exactly if every step is clean. -/
theorem always_iff_along (property : σ → Prop) (clean : σ → ι → Prop)
    (invariant : σ → Prop)
    (kept : ∀ state input, invariant state → property state →
      clean state input → invariant (step state input))
    (exact_iff : ∀ state input, invariant state → property state →
      (property (step state input) ↔ clean state input))
    (start : σ) (initially : invariant start) (now : property start)
    (inputs : List ι) :
    Always step property start inputs ↔ Along step clean start inputs := by
  induction inputs generalizing start with
  | nil => exact (always_nil property start).trans (iff_true_intro now)
  | cons input rest ih =>
      rw [always_cons]
      constructor
      · rintro ⟨_, later⟩
        have next := later [] List.nil_prefix
        have clean := (exact_iff start input initially now).mp next
        exact ⟨clean, (ih _ (kept start input initially now clean) next).mp
          later⟩
      · rintro ⟨clean, later⟩
        have next := (exact_iff start input initially now).mpr clean
        exact ⟨now, (ih _ (kept start input initially now clean) next).mpr
          later⟩

end XR872.Runs
