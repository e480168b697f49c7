/-
Resources that code acquires, uses and releases.

A list of effects is played over what is held. It stops where something is used
or released that is not held; otherwise each resource is released as often as it
was acquired, but for what is still held.
-/

import Mathlib

namespace XR872.Resources

variable {ρ : Type} [DecidableEq ρ]

inductive Effect (ρ : Type) where
  | acquire (resource : ρ)
  | release (resource : ρ)
  /-- `none` is a null pointer. -/
  | use (resource : Option ρ)
deriving DecidableEq

def after (held : List ρ) : Effect ρ → Option (List ρ)
  | .acquire resource => some (held ++ [resource])
  | .release resource =>
      if resource ∈ held then some (held.erase resource) else none
  | .use (some resource) => if resource ∈ held then some held else none
  | .use none => none

def play : List ρ → List (Effect ρ) → Option (List ρ)
  | held, [] => some held
  | held, effect :: later =>
      match after held effect with
      | some next => play next later
      | none => none

theorem play_cons (held next : List ρ) (effect : Effect ρ)
    (later : List (Effect ρ)) (stepped : after held effect = some next) :
    play held (effect :: later) = play next later := by
  conv_lhs => unfold play
  rw [stepped]

theorem play_stopped (held : List ρ) (effect : Effect ρ)
    (later : List (Effect ρ)) (stopped : after held effect = none) :
    play held (effect :: later) = none := by
  unfold play
  rw [stopped]

theorem play_acquire (held : List ρ) (resource : ρ)
    (later : List (Effect ρ)) :
    play held (.acquire resource :: later) =
      play (held ++ [resource]) later :=
  play_cons _ _ _ _ rfl

theorem play_use (held : List ρ) (resource : ρ) (later : List (Effect ρ))
    (member : resource ∈ held) :
    play held (.use (some resource) :: later) = play held later :=
  play_cons _ _ _ _ (if_pos member)

theorem play_release (held : List ρ) (resource : ρ) (later : List (Effect ρ))
    (member : resource ∈ held) :
    play held (.release resource :: later) =
      play (held.erase resource) later :=
  play_cons _ _ _ _ (if_pos member)

theorem play_uses (held : List ρ) (resources : List ρ)
    (later : List (Effect ρ))
    (members : ∀ resource ∈ resources, resource ∈ held) :
    play held (resources.map (fun resource => .use (some resource)) ++ later) =
      play held later := by
  induction resources with
  | nil => rfl
  | cons resource rest ih =>
      rw [List.map_cons, List.cons_append,
        play_use _ _ _ (members resource List.mem_cons_self)]
      exact ih fun other member => members other (List.mem_cons_of_mem _ member)

/-- What was held and what was acquired is what was released and what is
held. -/
theorem play_count (held next : List ρ) (effects : List (Effect ρ))
    (played : play held effects = some next) (resource : ρ) :
    held.count resource + effects.count (.acquire resource) =
      effects.count (.release resource) + next.count resource := by
  induction effects generalizing held with
  | nil =>
      cases played
      rw [List.count_nil, List.count_nil, Nat.add_zero, Nat.zero_add]
  | cons effect later ih =>
      cases stepped : after held effect with
      | none =>
          rw [play_stopped _ _ _ stepped] at played
          cases played
      | some between =>
          rw [play_cons _ _ _ _ stepped] at played
          have rest := ih between played
          rw [List.count_cons, List.count_cons]
          cases effect with
          | acquire other =>
              cases stepped
              rw [List.count_append, List.count_singleton] at rest
              by_cases same : other = resource
              · subst same
                simp at rest ⊢
                omega
              · simp [same] at rest ⊢
                omega
          | release other =>
              by_cases member : other ∈ held
              · cases (if_pos member).symm.trans stepped
                by_cases same : other = resource
                · subst same
                  have positive := List.count_pos_iff.mpr member
                  rw [List.count_erase_self] at rest
                  simp at rest ⊢
                  omega
                · rw [List.count_erase_of_ne (Ne.symm same)] at rest
                  simp [same] at rest ⊢
                  omega
              · cases (if_neg member).symm.trans stepped
          | use other =>
              cases other with
              | none => cases stepped
              | some other =>
                  by_cases member : other ∈ held
                  · cases (if_pos member).symm.trans stepped
                    simpa using rest
                  · cases (if_neg member).symm.trans stepped

/-- What is acquired on the way to nothing held is released exactly as often. -/
theorem count_of_balanced (held : List ρ) (effects : List (Effect ρ))
    (played : play held effects = some held) (resource : ρ) :
    effects.count (.acquire resource) = effects.count (.release resource) := by
  have counts := play_count held held effects played resource
  omega

end XR872.Resources
