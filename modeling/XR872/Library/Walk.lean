/-
Loops that follow links.

Each turn leads to another place or ends with a result. Over finitely many
places such a loop ends exactly if no place that it gets to leads back to
itself.
-/

import Mathlib

namespace XR872.Walks

open Relation

variable {σ ρ : Type} (turn : σ → σ ⊕ ρ)

def walk : Nat → σ → Option ρ
  | 0, _ => none
  | fuel + 1, place =>
      match turn place with
      | .inl next => walk fuel next
      | .inr result => some result

def Leads (place next : σ) : Prop := turn place = .inl next

inductive Ends : σ → ρ → Prop
  | here (place : σ) (result : ρ) (done : turn place = .inr result) :
      Ends place result
  | later (place next : σ) (result : ρ) (leads : Leads turn place next)
      (ends : Ends next result) : Ends place result

def Acyclic (start : σ) : Prop :=
  ∀ place, ReflTransGen (Leads turn) start place →
    ¬ TransGen (Leads turn) place place

variable {turn}

theorem leads_unique {place left right : σ} (first : Leads turn place left)
    (second : Leads turn place right) : left = right :=
  Sum.inl.inj (first.symm.trans second)

theorem leads_not_done {place next : σ} {result : ρ}
    (leads : Leads turn place next) (done : turn place = .inr result) :
    False := by
  unfold Leads at leads
  rw [done] at leads
  cases leads

theorem walk_iff (place : σ) (result : ρ) :
    (∃ fuel, walk turn fuel place = some result) ↔ Ends turn place result := by
  constructor
  · rintro ⟨fuel, walked⟩
    induction fuel generalizing place with
    | zero => cases walked
    | succ fuel ih =>
        rw [walk] at walked
        cases here : turn place with
        | inl next =>
            rw [here] at walked
            exact Ends.later place next result here (ih next walked)
        | inr found =>
            rw [here] at walked
            rw [Option.some.inj walked] at here
            exact Ends.here place result here
  · intro ends
    induction ends with
    | here place result done =>
        refine ⟨1, ?_⟩
        rw [walk, done]
    | later place next result leads ends ih =>
        obtain ⟨fuel, walked⟩ := ih
        refine ⟨fuel + 1, ?_⟩
        rw [walk, leads]
        exact walked

theorem ends_at {start : σ} {result : ρ} (ends : Ends turn start result) :
    ∃ place, ReflTransGen (Leads turn) start place ∧
      turn place = .inr result := by
  induction ends with
  | here place result done => exact ⟨place, ReflTransGen.refl, done⟩
  | later place next result leads ends ih =>
      obtain ⟨last, path, done⟩ := ih
      exact ⟨last, ReflTransGen.head leads path, done⟩

theorem acyclic_of_ends {start : σ} {result : ρ}
    (ends : Ends turn start result) : Acyclic turn start := by
  induction ends with
  | here start result done =>
      intro place path cycle
      have same : start = place := by
        cases path.cases_head with
        | inl same => exact same
        | inr leads =>
            obtain ⟨next, leads, _⟩ := leads
            exact (leads_not_done leads done).elim
      rw [← same] at cycle
      obtain ⟨next, leads, _⟩ := TransGen.head'_iff.mp cycle
      exact leads_not_done leads done
  | later start next result leads ends ih =>
      intro place path cycle
      cases path.cases_head with
      | inl same =>
          -- the way back to the start goes through the next place
          rw [← same] at cycle
          obtain ⟨other, first, back⟩ := TransGen.head'_iff.mp cycle
          rw [leads_unique first leads] at back
          exact ih start back cycle
      | inr first =>
          obtain ⟨other, first, path⟩ := first
          rw [leads_unique first leads] at path
          exact ih place path cycle

section Finite

variable {start : σ}

theorem ends_of_acyclic
    (finite : {place | ReflTransGen (Leads turn) start place}.Finite)
    (acyclic : Acyclic turn start) : ∃ result, Ends turn start result := by
  let Reached := {place // ReflTransGen (Leads turn) start place}
  let Behind : Reached → Reached → Prop :=
    fun later earlier => TransGen (Leads turn) earlier.val later.val
  have : Finite Reached := finite
  have : IsTrans Reached Behind :=
    ⟨fun _ _ _ first second => TransGen.trans second first⟩
  have : Std.Irrefl Behind :=
    ⟨fun place => acyclic place.val place.property⟩
  have founded := Finite.wellFounded_of_trans_of_irrefl Behind
  have all : ∀ place : Reached, ∃ result, Ends turn place.val result := by
    intro place
    induction place using founded.induction with
    | _ place ih =>
        cases here : turn place.val with
        | inr result => exact ⟨result, Ends.here _ _ here⟩
        | inl next =>
            obtain ⟨result, ends⟩ :=
              ih ⟨next, place.property.tail here⟩ (TransGen.single here)
            exact ⟨result, Ends.later _ _ _ here ends⟩
  exact all ⟨start, ReflTransGen.refl⟩

theorem ends_iff_acyclic
    (finite : {place | ReflTransGen (Leads turn) start place}.Finite) :
    (∃ result, Ends turn start result) ↔ Acyclic turn start := by
  constructor
  · rintro ⟨result, ends⟩
    exact acyclic_of_ends ends
  · exact ends_of_acyclic finite

end Finite

end XR872.Walks
