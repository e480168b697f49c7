/-
Which observers are in the list of a publisher.

An attached observer is always in the list, and what is in the list is attached
or waits for its removal. Two calls break this: the attach of an observer whose
state is DETACHED although it is not in the list, and a touch made in the
observer's own callback, which the end of the callback takes back.
-/

import XR872.SysCtrl.Publisher

namespace XR872.SysCtrl

open Chains
open Runs

variable {ω : Type} [DecidableEq ω]

/-! ### What is promised -/

/-- What is promised of every state. -/
structure Member (publisher : Publisher ω) : Prop where
  /-- Outside of any notify the list is what is attached. -/
  outside : publisher.notifies = [] → ∀ obs,
    (obs ∈ publisher.list.items ↔ (publisher.state obs).isAttached = true)
  nodup : publisher.list.items.Nodup
  /-- After an attach or touch that returned 0. -/
  promised : ∀ obs, publisher.promised obs = true →
    obs ∈ publisher.list.items ∧ (publisher.state obs).isAttached = true

/-- An attach of an observer that is marked as detached finds it in the list. -/
def FindsMarked (publisher : Publisher ω) : PubAct ω → Prop
  | .attach _ obs => publisher.free = true → publisher.state obs = .detached →
      obs ∈ publisher.list.items
  | _ => True

/-- A callback that returns has not detached its observer and touched it
again. -/
def ReturnsSpent (publisher : Publisher ω) : PubAct ω → Prop
  | .ret => ∀ notify ∈ publisher.notifies.head?, notify.triggering = true →
      ∀ obs ∈ notify.itor, publisher.state obs = .attachedOnce →
        publisher.promised obs = false
  | _ => True

/-! ### The list and the states -/

structure Joined (publisher : Publisher ω) : Prop where
  attached : ∀ obs, (publisher.state obs).isAttached = true →
    obs ∈ publisher.list.items
  marked : ∀ obs ∈ publisher.list.items,
    (publisher.state obs).isAttached = true ∨ publisher.state obs = .detached
  quiet : publisher.notifies = [] → publisher.base = .idle ∧
    ∀ obs ∈ publisher.list.items, publisher.state obs ≠ .detached

theorem joined_create : Joined (Publisher.create ω) := by
  exact {
    attached := by
      intro obs attached
      cases attached
    marked := by
      intro obs member
      cases member
    quiet := by
      intro _
      refine ⟨rfl, ?_⟩
      intro obs member
      cases member }

section Joined

variable {publisher : Publisher ω}

theorem isAttached_not_detached (state : ObserverState)
    (attached : state.isAttached = true) : state ≠ .detached := by
  intro same
  rw [same] at attached
  cases attached

/-- A turn that leaves the list and the states alone, inside of a notify. -/
theorem Joined.inside (joined : Joined publisher) (after : Publisher ω)
    (list : after.list = publisher.list) (state : after.state = publisher.state)
    (inside : after.notifies ≠ []) : Joined after := by
  exact {
    attached := by
      rw [list, state]
      exact joined.attached
    marked := by
      rw [list, state]
      exact joined.marked
    quiet := fun outside => absurd outside inside }

theorem granted_isAttached (once : Bool) (obs : ω) (list : Chain ω) :
    ((publisher.granted once obs list).state obs).isAttached = true := by
  change (Function.update publisher.state obs _ obs).isAttached = true
  rw [Function.update_self]
  cases once <;> rfl

theorem granted_state (once : Bool) (obs other : ω) (list : Chain ω)
    (apart : other ≠ obs) :
    (publisher.granted once obs list).state other = publisher.state other :=
  Function.update_of_ne apart _ _

theorem Joined.granted (joined : Joined publisher) (once : Bool) (obs : ω)
    (list : Chain ω)
    (items : ∀ other, other ∈ list.items ↔
      other = obs ∨ other ∈ publisher.list.items) :
    Joined (publisher.granted once obs list) := by
  exact {
    attached := by
      intro other attached
      by_cases same : other = obs
      · exact (items other).mpr (Or.inl same)
      · rw [granted_state once obs other list same] at attached
        exact (items other).mpr (Or.inr (joined.attached other attached))
    marked := by
      intro other member
      by_cases same : other = obs
      · rw [same]
        exact Or.inl (granted_isAttached once obs list)
      · rw [granted_state once obs other list same]
        rcases (items other).mp member with atObs | old
        · exact absurd atObs same
        · exact joined.marked other old
    quiet := by
      intro outside
      obtain ⟨idle, none_⟩ := joined.quiet outside
      refine ⟨idle, ?_⟩
      intro other member
      by_cases same : other = obs
      · rw [same]
        exact isAttached_not_detached _ (granted_isAttached once obs list)
      · rw [granted_state once obs other list same]
        rcases (items other).mp member with atObs | old
        · exact absurd atObs same
        · exact none_ other old }

theorem Joined.detach (joined : Joined publisher) (obs : ω) :
    Joined (publisher.detach obs).1 := by
  unfold Publisher.detach
  by_cases idle : publisher.base = .idle
  · rw [if_pos idle]
    exact {
      attached := by
        intro other attached
        change (Function.update publisher.state obs _ other).isAttached = true
          at attached
        by_cases same : other = obs
        · rw [same, Function.update_self] at attached
          cases attached
        · rw [Function.update_of_ne same] at attached
          exact (publisher.list.mem_remove obs other).mpr
            ⟨same, joined.attached other attached⟩
      marked := by
        intro other member
        obtain ⟨apart, old⟩ := (publisher.list.mem_remove obs other).mp member
        change (Function.update publisher.state obs _ other).isAttached = true ∨
          Function.update publisher.state obs _ other = _
        rw [Function.update_of_ne apart]
        exact joined.marked other old
      quiet := by
        intro outside
        obtain ⟨_, none_⟩ := joined.quiet
          (List.map_eq_nil_iff.mp (List.map_eq_nil_iff.mp outside))
        refine ⟨idle, ?_⟩
        intro other member
        obtain ⟨apart, old⟩ := (publisher.list.mem_remove obs other).mp member
        change Function.update publisher.state obs _ other ≠ _
        rw [Function.update_of_ne apart]
        exact none_ other old }
  · rw [if_neg idle]
    exact {
      attached := by
        intro other attached
        change (Function.update publisher.state obs _ other).isAttached = true
          at attached
        by_cases same : other = obs
        · rw [same, Function.update_self] at attached
          cases attached
        · rw [Function.update_of_ne same] at attached
          exact joined.attached other attached
      marked := by
        intro other member
        change (Function.update publisher.state obs _ other).isAttached = true ∨
          Function.update publisher.state obs _ other = _
        by_cases same : other = obs
        · rw [same, Function.update_self]
          exact Or.inr rfl
        · rw [Function.update_of_ne same]
          exact joined.marked other member
      quiet := by
        intro outside
        exact absurd (joined.quiet (List.map_eq_nil_iff.mp outside)).1 idle }

theorem Joined.finish (joined : Joined publisher) (notify : Notify ω)
    (rest : List (Notify ω)) : Joined (publisher.finish notify rest) := by
  have items := Publisher.cleanup_items publisher.list publisher.state
  have state := Publisher.cleanup_state publisher.list publisher.state
  have member : ∀ obs, obs ∈ (publisher.finish notify rest).list.items ↔
      obs ∈ publisher.list.items ∧ publisher.state obs ≠ .detached := by
    intro obs
    change obs ∈ (Publisher.cleanup publisher.list publisher.state).1.items ↔ _
    rw [items, List.mem_filter, bne_iff_ne]
  have stays : ∀ obs, publisher.state obs ≠ .detached →
      (publisher.finish notify rest).state obs = publisher.state obs := by
    intro obs other
    exact (state obs).trans (if_neg fun both => other both.2)
  exact {
    attached := by
      intro obs attached
      by_cases marked : publisher.state obs = .detached
      · have gone := state obs
        change (Publisher.cleanup publisher.list publisher.state).2 obs = _
          at gone
        change ((Publisher.cleanup publisher.list publisher.state).2
          obs).isAttached = true at attached
        rw [gone, marked] at attached
        split at attached <;> cases attached
      · rw [stays obs marked] at attached
        exact (member obs).mpr ⟨joined.attached obs attached, marked⟩
    marked := by
      intro obs inside
      obtain ⟨old, notMarked⟩ := (member obs).mp inside
      rw [stays obs notMarked]
      exact joined.marked obs old
    quiet := by
      intro _
      refine ⟨rfl, ?_⟩
      intro obs inside
      obtain ⟨_, notMarked⟩ := (member obs).mp inside
      rw [stays obs notMarked]
      exact notMarked }

theorem Joined.marks (joined : Joined publisher) (after : Publisher ω) (obs : ω)
    (list : after.list = publisher.list)
    (state : after.state = Function.update publisher.state obs .detached)
    (inside : after.notifies ≠ []) : Joined after := by
  exact {
    attached := by
      intro other attached
      rw [state] at attached
      rw [list]
      by_cases same : other = obs
      · rw [same, Function.update_self] at attached
        cases attached
      · rw [Function.update_of_ne same] at attached
        exact joined.attached other attached
    marked := by
      intro other member
      rw [list] at member
      rw [state]
      by_cases same : other = obs
      · rw [same, Function.update_self]
        exact Or.inr rfl
      · rw [Function.update_of_ne same]
        exact joined.marked other member
    quiet := fun outside => absurd outside inside }

end Joined

/-- Every turn keeps the list and the states in step, as long as no attach takes
an observer that is marked and not in the list. -/
theorem joined_turn (compare : Nat → Nat → Int) (eventOf : ω → Nat)
    (publisher : Publisher ω) (act : PubAct ω) (joined : Joined publisher)
    (finds : FindsMarked publisher act) :
    Joined (publisher.turn compare eventOf act) := by
  have step := publisher.turned compare eventOf act
  generalize publisher.turn compare eventOf act = after at step ⊢
  cases step with
  | same => exact joined
  | revive once obs free state =>
      apply joined.granted
      intro other
      constructor
      · exact Or.inr
      · rintro (same | old)
        · rw [same]
          exact finds free state
        · exact old
  | link once obs free state alone =>
      apply joined.granted
      intro other
      rw [Chain.addTail_items, List.mem_append, List.mem_singleton, or_comm]
  | detach obs free => exact joined.detach obs
  | notify event free => exact joined.inside _ rfl rfl (List.cons_ne_nil _ _)
  | ret notify rest itor => exact joined.inside _ rfl rfl (List.cons_ne_nil _ _)
  | once notify rest itor =>
      exact joined.marks _ itor rfl rfl (List.cons_ne_nil _ _)
  | finish notify rest => exact joined.finish notify rest
  | trigger notify rest itor =>
      exact joined.inside _ rfl rfl (List.cons_ne_nil _ _)
  | pass notify rest itor => exact joined.inside _ rfl rfl (List.cons_ne_nil _ _)

/-! ### The promises -/

/-- What was promised is attached. -/
def Promised (publisher : Publisher ω) : Prop :=
  ∀ obs, publisher.promised obs = true →
    (publisher.state obs).isAttached = true

section Promised

variable {publisher : Publisher ω}

theorem promised_granted (promised : Promised publisher) (once : Bool) (obs : ω)
    (list : Chain ω) : Promised (publisher.granted once obs list) := by
  intro other isPromised
  by_cases same : other = obs
  · rw [same]
    exact granted_isAttached once obs list
  · rw [granted_state once obs other list same]
    apply promised
    change Function.update publisher.promised obs true other = true at isPromised
    rwa [Function.update_of_ne same] at isPromised

theorem promised_detach (promised : Promised publisher) (obs : ω) :
    Promised (publisher.detach obs).1 := by
  have kept : ∀ other, Function.update publisher.promised obs false other = true →
      ∀ state, (Function.update publisher.state obs state other).isAttached =
        true := by
    intro other isPromised state
    by_cases same : other = obs
    · rw [same, Function.update_self] at isPromised
      cases isPromised
    · rw [Function.update_of_ne same] at isPromised ⊢
      exact promised other isPromised
  unfold Publisher.detach
  split
  · exact fun other isPromised => kept other isPromised _
  · exact fun other isPromised => kept other isPromised _

theorem promised_finish (promised : Promised publisher) (notify : Notify ω)
    (rest : List (Notify ω)) : Promised (publisher.finish notify rest) := by
  intro obs isPromised
  have attached := promised obs isPromised
  change ((Publisher.cleanup publisher.list publisher.state).2
    obs).isAttached = true
  rw [Publisher.cleanup_state, if_neg fun both =>
    isAttached_not_detached _ attached both.2]
  exact attached

theorem promised_trigger (promised : Promised publisher) (notify : Notify ω)
    (rest : List (Notify ω)) (itor : ω) :
    Promised (publisher.trigger notify rest itor) := by
  intro obs isPromised
  apply promised
  simp only [Publisher.trigger] at isPromised
  split at isPromised
  · by_cases same : obs = itor
    · rw [same, Function.update_self] at isPromised
      cases isPromised
    · rwa [Function.update_of_ne same] at isPromised
  · exact isPromised

theorem Joined.member (joined : Joined publisher)
    (promised : Promised publisher) : Member publisher := by
  exact {
    outside := by
      intro none_ obs
      obtain ⟨_, quiet⟩ := joined.quiet none_
      constructor
      · intro inside
        exact (joined.marked obs inside).resolve_right (quiet obs inside)
      · exact joined.attached obs
    nodup := publisher.list.nodup
    promised := by
      intro obs isPromised
      have attached := promised obs isPromised
      exact ⟨joined.attached obs attached, attached⟩ }

end Promised

/-- The two calls that break the membership. -/
def KeepsMembers (publisher : Publisher ω) (act : PubAct ω) : Prop :=
  FindsMarked publisher act ∧ ReturnsSpent publisher act

theorem promised_turn (compare : Nat → Nat → Int) (eventOf : ω → Nat)
    (publisher : Publisher ω) (act : PubAct ω) (promised : Promised publisher)
    (spent : ReturnsSpent publisher act) :
    Promised (publisher.turn compare eventOf act) := by
  have step := publisher.turned compare eventOf act
  generalize publisher.turn compare eventOf act = after at step ⊢
  cases step with
  | same => exact promised
  | revive once obs free state => exact promised_granted promised once obs _
  | link once obs free state alone => exact promised_granted promised once obs _
  | detach obs free => exact promised_detach promised obs
  | notify event free => exact promised
  | ret notify rest itor => exact promised
  | once notify rest itor top triggering at_itor state =>
      intro obs isPromised
      have unpromised := spent notify (by rw [top]; rfl) triggering itor at_itor
        state
      change (Function.update publisher.state itor _ obs).isAttached = true
      by_cases same : obs = itor
      · rw [same] at isPromised
        cases isPromised.symm.trans unpromised
      · rw [Function.update_of_ne same]
        exact promised obs isPromised
  | finish notify rest => exact promised_finish promised notify rest
  | trigger notify rest itor => exact promised_trigger promised notify rest itor
  | pass notify rest itor => exact promised

theorem not_member_turn (compare : Nat → Nat → Int) (eventOf : ω → Nat)
    (publisher : Publisher ω) (act : PubAct ω)
    (breaks : ¬ KeepsMembers publisher act) :
    ¬ Member (publisher.turn compare eventOf act) := by
  intro member
  rcases not_and_or.mp breaks with notFound | unspent
  · cases act with
    | attach once obs =>
        unfold FindsMarked at notFound
        push Not at notFound
        obtain ⟨free, state, outside⟩ := notFound
        simp only [Publisher.turn, if_pos free, Publisher.attach,
          if_pos state] at member
        apply outside
        exact (member.promised obs (Function.update_self ..)).1
    | _ => exact notFound trivial
  · cases act with
    | ret =>
        unfold ReturnsSpent at unspent
        push Not at unspent
        obtain ⟨notify, top, triggering, obs, at_itor, state, isPromised⟩ :=
          unspent
        obtain ⟨rest, split⟩ := List.head?_eq_some_iff.mp top
        rw [Option.mem_def] at at_itor
        simp only [Publisher.turn, Publisher.ret, split, triggering, if_true,
          at_itor, if_pos state] at member
        have attached := (member.promised obs
          (Bool.eq_true_of_not_eq_false isPromised)).2
        change (Function.update publisher.state obs _ obs).isAttached = true
          at attached
        rw [Function.update_self] at attached
        cases attached
    | _ => exact unspent trivial

/-- The membership holds throughout a run exactly if no attach takes an observer
that is marked and not in the list, and no callback touches its own observer
again. -/
theorem member_iff (compare : Nat → Nat → Int) (eventOf : ω → Nat)
    (acts : List (PubAct ω)) :
    Always (Publisher.turn compare eventOf) Member (Publisher.create ω) acts ↔
      Along (Publisher.turn compare eventOf) KeepsMembers (Publisher.create ω)
        acts := by
  apply always_iff_along Member KeepsMembers
    (fun publisher => Joined publisher ∧ Promised publisher)
  · rintro publisher act ⟨joined, promised⟩ _ ⟨finds, spent⟩
    exact ⟨joined_turn compare eventOf publisher act joined finds,
      promised_turn compare eventOf publisher act promised spent⟩
  · rintro publisher act ⟨joined, promised⟩ _
    constructor
    · intro member
      by_contra breaks
      exact not_member_turn compare eventOf publisher act breaks member
    · rintro ⟨finds, spent⟩
      exact (joined_turn compare eventOf publisher act joined finds).member
        (promised_turn compare eventOf publisher act promised spent)
  · refine ⟨joined_create, ?_⟩
    intro obs isPromised
    cases isPromised
  · apply joined_create.member
    intro obs isPromised
    cases isPromised

/-- A callback of observer 0 detaches observer 1, which was never attached; its
attach then returns 0 and leaves it out of the list. -/
theorem detachedStranger_notLinked :
    let publisher := run (Publisher.turn (fun _ _ => 0) id) (Publisher.create Nat)
      [.attach false 0, .notify 7, .tick, .detach 1, .ret, .tick]
    publisher.notifies.length = 0 ∧ (publisher.attach false 1).2 = 0 ∧
      (publisher.attach false 1).1.state 1 = .attached ∧
      (publisher.attach false 1).1.list.items = [0] ∧
      ¬ Member (publisher.attach false 1).1 := by
  refine ⟨by decide, by decide, by decide, by decide, ?_⟩
  intro member
  have linked := (member.promised 1 (by decide)).1
  revert linked
  decide

end XR872.SysCtrl
