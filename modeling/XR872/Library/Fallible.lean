/-
Computations that can fail.

A sequence is run step by step: a step that succeeds hands its state on, one
that fails ends the sequence with the state it left. Where a program has no
meaning the computation stops without a state; a triple says that it does not
stop there, and what holds after it.
-/

import Mathlib

namespace XR872.Fallible

variable {ε σ α β : Type}

theorem run_bind_ok (first : ExceptT ε (StateM σ) α)
    (next : α → ExceptT ε (StateM σ) β) (state after : σ) (value : α)
    (run : first state = (.ok value, after)) :
    (first >>= next) state = next value after := by
  simp [bind, ExceptT.bind, ExceptT.mk, StateT.bind, ExceptT.bindCont, run]

theorem run_bind_error (first : ExceptT ε (StateM σ) α)
    (next : α → ExceptT ε (StateM σ) β) (state after : σ) (reason : ε)
    (run : first state = (.error reason, after)) :
    (first >>= next) state = (.error reason, after) := by
  simp [bind, ExceptT.bind, ExceptT.mk, StateT.bind, ExceptT.bindCont, run,
    pure, StateT.pure]

theorem run_bind_inv (first : ExceptT ε (StateM σ) α)
    (next : α → ExceptT ε (StateM σ) β) (state after : σ) (result : β)
    (run : (first >>= next) state = (.ok result, after)) :
    ∃ value between, first state = (.ok value, between) ∧
      next value between = (.ok result, after) := by
  cases outcome : first state with
  | mk answer between =>
      cases answer with
      | ok value =>
          simp only [bind, ExceptT.bind, ExceptT.mk, StateT.bind,
            ExceptT.bindCont, outcome] at run
          exact ⟨value, between, rfl, run⟩
      | error reason =>
          simp only [bind, ExceptT.bind, ExceptT.mk, StateT.bind,
            ExceptT.bindCont, outcome] at run
          cases run

end XR872.Fallible

namespace XR872.Checked

variable {σ α β ι : Type}

def Triple (pre : σ → Prop) (program : StateT σ Option α)
    (post : α → σ → Prop) : Prop :=
  ∀ s, pre s → ∃ value after, program s = some (value, after) ∧ post value after

def checked (found : Option α) : StateT σ Option α :=
  fun s => found.map fun value => (value, s)

theorem Triple.bind {pre : σ → Prop} {middle : α → σ → Prop}
    {post : β → σ → Prop} {program : StateT σ Option α}
    {next : α → StateT σ Option β} (first : Triple pre program middle)
    (second : ∀ value, Triple (middle value) (next value) post) :
    Triple pre (program >>= next) post := by
  intro s holds
  obtain ⟨value, between, run, reached⟩ := first s holds
  obtain ⟨result, after, run', ends⟩ := second value between reached
  exact ⟨result, after, by simp [Bind.bind, StateT.bind, run, run'], ends⟩

theorem Triple.pure {pre : σ → Prop} {post : α → σ → Prop} (value : α)
    (implies : ∀ s, pre s → post value s) :
    Triple pre (Pure.pure value) post := by
  intro s holds
  exact ⟨value, s, rfl, implies s holds⟩

theorem Triple.conseq {pre pre' : σ → Prop} {post post' : α → σ → Prop}
    {program : StateT σ Option α} (triple : Triple pre program post)
    (stronger : ∀ s, pre' s → pre s)
    (weaker : ∀ value s, post value s → post' value s) :
    Triple pre' program post' := by
  intro s holds
  obtain ⟨value, after, run, ends⟩ := triple s (stronger s holds)
  exact ⟨value, after, run, weaker value after ends⟩

theorem Triple.pre {pre pre' : σ → Prop} {post : α → σ → Prop}
    {program : StateT σ Option α} (triple : Triple pre program post)
    (stronger : ∀ s, pre' s → pre s) : Triple pre' program post :=
  triple.conseq stronger fun _ _ ends => ends

/-- A fact that does not depend on the state can be used for the rest. -/
theorem Triple.given {fact : Prop} {pre : σ → Prop} {post : α → σ → Prop}
    {program : StateT σ Option α}
    (triple : fact → Triple pre program post) :
    Triple (fun s => fact ∧ pre s) program post := by
  intro s holds
  exact triple holds.1 s holds.2

theorem Triple.some_ {pre : ι → σ → Prop} {post : α → σ → Prop}
    {program : StateT σ Option α}
    (triple : ∀ index, Triple (pre index) program post) :
    Triple (fun s => ∃ index, pre index s) program post := by
  intro s holds
  obtain ⟨index, there⟩ := holds
  exact triple index s there

theorem Triple.get {pre : σ → Prop} {post : β → σ → Prop}
    {next : σ → StateT σ Option β}
    (rest : ∀ s, pre s → Triple (fun now => now = s) (next s) post) :
    Triple pre (get >>= next) post := by
  intro s holds
  exact rest s holds s rfl

theorem Triple.checked {pre : σ → Prop} {post : β → σ → Prop}
    {found : Option α} {value : α} {next : α → StateT σ Option β}
    (there : found = some value) (rest : Triple pre (next value) post) :
    Triple pre (checked found >>= next) post := by
  intro s holds
  obtain ⟨result, after, run, ends⟩ := rest s holds
  exact ⟨result, after, by
    simp [Bind.bind, StateT.bind, Checked.checked, there, run], ends⟩

end XR872.Checked
