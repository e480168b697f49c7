/-
What a notify triggers.

As long as no node is unlinked under a notify, and none is linked again behind
one that has triggered it, no turn is lost and none comes twice.
-/

import XR872.SysCtrl.Serving

namespace XR872.SysCtrl

open Chains
open Runs

variable {ω : Type} [DecidableEq ω]

section Serving

variable {compare : Nat → Nat → Int} {eventOf : ω → Nat}
  {publisher : Publisher ω}

/-! ### One turn -/

theorem Serving.revive (serving : Serving compare eventOf publisher)
    (once : Bool) (obs : ω)
    (joined : Joined (publisher.granted once obs publisher.list)) :
    Serving compare eventOf (publisher.granted once obs publisher.list) := by
  exact {
    joined
    outer := serving.outer
    standing := by
      intro notify member
      obtain ⟨passed, left, standing⟩ := serving.standing notify member
      exact ⟨passed, left, standing.states _ (granted_attached once obs _)⟩
    finished := serving.finished
    spent := serving.spent.granted once obs _
    left := serving.left.granted once obs _
    late := serving.late
    strayed := serving.strayed }

theorem Serving.link (serving : Serving compare eventOf publisher)
    (once : Bool) (obs : ω) (free : publisher.free = true)
    (alone : publisher.list.isAlone obs = true)
    (fresh : ∀ notify ∈ publisher.notifies, obs ∉ notify.fired)
    (joined : Joined (publisher.granted once obs
      (publisher.list.addTail obs alone))) :
    Serving compare eventOf
      (publisher.granted once obs (publisher.list.addTail obs alone)) := by
  exact {
    joined
    outer := serving.outer
    standing := by
      intro notify member
      obtain ⟨passed, left, standing⟩ := serving.standing notify member
      have longer := standing.addTail obs (serving.waits free notify member)
        (fresh notify member)
      exact ⟨passed, left ++ [obs],
        longer.states _ (granted_attached once obs _)⟩
    finished := serving.finished
    spent := serving.spent.granted once obs _
    left := serving.left.granted once obs _
    late := serving.late
    strayed := serving.strayed }

/-- A detached observer is not attached, and the others are what they were. -/
theorem update_isAttached (state : ω → ObserverState) (obs other : ω)
    (value : ObserverState) (gone : value.isAttached = false)
    (attached : (Function.update state obs value other).isAttached = true) :
    other ≠ obs ∧ state other = Function.update state obs value other := by
  by_cases same : other = obs
  · rw [same, Function.update_self, gone] at attached
    cases attached
  · exact ⟨same, (Function.update_of_ne same _ _).symm⟩

structure Detached (publisher after : Publisher ω) (obs : ω)
    (value : ObserverState) : Prop where
  gone : value.isAttached = false
  state : after.state = Function.update publisher.state obs value
  notifies : after.notifies = publisher.notifies.map (Notify.lose obs)
  spent : after.spent = publisher.spent
  promised : after.promised = Function.update publisher.promised obs false
  left : after.left = Function.update publisher.left obs true

section Detached

variable {after : Publisher ω} {obs : ω} {value : ObserverState}

theorem Detached.same (detached : Detached publisher after obs value)
    (other : ω) (attached : (after.state other).isAttached = true) :
    publisher.state other = after.state other := by
  rw [detached.state] at attached ⊢
  exact (update_isAttached publisher.state obs other value detached.gone
    attached).2

theorem Spent.detached (spent : Spent publisher)
    (detached : Detached publisher after obs value) : Spent after := by
  refine spent.moves after detached.spent ?_ detached.same ?_
  · intro other promised
    rw [detached.promised] at promised
    by_cases same : other = obs
    · rw [same, Function.update_self] at promised
      cases promised
    · rwa [Function.update_of_ne same] at promised
  · intro other _ notify member triggering itor
    refine ⟨notify.lose obs, ?_, ?_, ?_⟩
    · rw [detached.notifies]
      exact List.mem_map_of_mem member
    · rw [lose_triggering]
      exact triggering
    · rw [lose_itor]
      exact itor

theorem Left.detached (left : Left publisher)
    (detached : Detached publisher after obs value) : Left after := by
  refine left.moves after ?_ detached.same
  intro other isLeft
  rw [detached.left] at isLeft
  rw [detached.state]
  by_cases same : other = obs
  · rw [same, Function.update_self]
    exact Or.inr detached.gone
  · rw [Function.update_of_ne same] at isLeft
    exact Or.inl isLeft

theorem Serving.detached_outer (serving : Serving compare eventOf publisher)
    (detached : Detached publisher after obs value) :
    ∀ notify ∈ after.notifies.tail, notify.triggering = true := by
  intro notify member
  rw [detached.notifies, ← List.map_tail] at member
  obtain ⟨old, inner, same⟩ := List.mem_map.mp member
  rw [← same, lose_triggering]
  exact serving.outer old inner

end Detached

theorem Serving.detach (serving : Serving compare eventOf publisher) (obs : ω)
    (stood : publisher.base = .idle →
      ∀ notify ∈ publisher.notifies, notify.itor ≠ some obs)
    (joined : Joined (publisher.detach obs).1) :
    Serving compare eventOf (publisher.detach obs).1 := by
  by_cases idle : publisher.base = .idle
  · have unlinked : (publisher.notifies.map (Notify.lose obs)).map
        (Notify.unlink fun other => other == obs) =
          publisher.notifies.map (Notify.lose obs) := by
      rw [List.map_map]
      apply List.map_congr_left
      intro notify member
      apply unlink_other
      intro other itor
      rw [lose_itor] at itor
      apply beq_false_of_ne
      intro same
      rw [same] at itor
      exact stood idle notify member itor
    have detached : Detached publisher (publisher.detach obs).1 obs .ilde := by
      unfold Publisher.detach
      rw [if_pos idle]
      exact { gone := rfl, state := rfl, notifies := unlinked, spent := rfl,
              promised := rfl, left := rfl }
    unfold Publisher.detach at joined detached ⊢
    rw [if_pos idle] at joined detached ⊢
    exact {
      joined
      outer := serving.detached_outer detached
      standing := by
        intro notify member
        simp only [unlinked] at member
        obtain ⟨old, inner, same⟩ := List.mem_map.mp member
        obtain ⟨passed, left, standing⟩ := serving.standing old inner
        have lost := standing.lose obs
          (Function.update publisher.state obs .ilde)
          (fun other apart => Function.update_of_ne apart _ _)
        refine ⟨passed.filter (fun other => other != obs),
          left.filter (fun other => other != obs), ?_⟩
        change Standing compare eventOf (publisher.list.items.erase obs) _ _ _ _
        rw [publisher.list.nodup.erase_eq_filter, ← same]
        apply lost.filter
        · intro other itor
          rw [lose_itor] at itor
          apply bne_iff_ne.mpr
          intro isObs
          rw [isObs] at itor
          exact stood idle old inner itor
        · intro other attached
          exact bne_iff_ne.mpr
            (update_isAttached publisher.state obs other .ilde rfl attached).1
      finished := serving.finished
      spent := serving.spent.detached detached
      left := serving.left.detached detached
      late := serving.late
      strayed := serving.strayed }
  · have detached : Detached publisher (publisher.detach obs).1 obs
        .detached := by
      unfold Publisher.detach
      rw [if_neg idle]
      exact { gone := rfl, state := rfl, notifies := rfl, spent := rfl,
              promised := rfl, left := rfl }
    unfold Publisher.detach at joined detached ⊢
    rw [if_neg idle] at joined detached ⊢
    exact {
      joined
      outer := serving.detached_outer detached
      standing := by
        intro notify member
        obtain ⟨old, inner, same⟩ := List.mem_map.mp member
        obtain ⟨passed, left, standing⟩ := serving.standing old inner
        refine ⟨passed, left, ?_⟩
        rw [← same]
        exact standing.lose obs _
          (fun other apart => Function.update_of_ne apart _ _)
      finished := serving.finished
      spent := serving.spent.detached detached
      left := serving.left.detached detached
      late := serving.late
      strayed := serving.strayed }

theorem Serving.notify (serving : Serving compare eventOf publisher)
    (event : Nat) (free : publisher.free = true)
    (joined : Joined (publisher.notify compare eventOf event)) :
    Serving compare eventOf (publisher.notify compare eventOf event) := by
  exact {
    joined
    outer := serving.waits free
    standing := by
      intro notify member
      rcases List.mem_cons.mp member with same | old
      · rw [same]
        exact ⟨[], _, standing_new publisher serving.joined event⟩
      · exact serving.standing notify old
    finished := serving.finished
    spent := by
      refine serving.spent.moves _ rfl (fun _ => id) (fun _ _ => rfl) ?_
      intro obs _ notify member triggering itor
      exact ⟨notify, List.mem_cons_of_mem _ member, triggering, itor⟩
    left := serving.left
    late := serving.late
    strayed := serving.strayed }

section Top

variable {notify : Notify ω} {rest : List (Notify ω)} {itor : ω}

/-- The notify on top stands at the node of its `itor`. -/
theorem Serving.top (serving : Serving compare eventOf publisher)
    (top : publisher.notifies = notify :: rest)
    (at_itor : notify.itor = some itor) :
    ∃ passed left, Standing compare eventOf publisher.list.items
      publisher.state notify passed (itor :: left) := by
  obtain ⟨passed, left, standing⟩ := serving.standing notify
    (by rw [top]; exact List.mem_cons_self)
  obtain ⟨more, rfl⟩ := standing.left_cons itor at_itor
  exact ⟨passed, more, standing⟩

theorem Serving.inner (serving : Serving compare eventOf publisher)
    (top : publisher.notifies = notify :: rest) (other : Notify ω)
    (member : other ∈ rest) : other.triggering = true ∧ ∃ passed left,
      Standing compare eventOf publisher.list.items publisher.state other passed
        left := by
  constructor
  · apply serving.outer
    rw [top]
    exact member
  · apply serving.standing
    rw [top]
    exact List.mem_cons_of_mem _ member

theorem Serving.goOn (serving : Serving compare eventOf publisher)
    (top : publisher.notifies = notify :: rest)
    (at_itor : notify.itor = some itor)
    (skips : notify.triggering = false →
      ¬ (compare notify.event (eventOf itor) = 0 ∧
        (publisher.state itor).isAttached = true))
    (returned : notify.triggering = true →
      publisher.state itor ≠ .attachedOnce)
    (joined : Joined (publisher.goOn notify rest itor)) :
    Serving compare eventOf (publisher.goOn notify rest itor) := by
  obtain ⟨passed, left, standing⟩ := serving.top top at_itor
  exact {
    joined
    outer := fun other member => (serving.inner top other member).1
    standing := by
      intro other member
      rcases List.mem_cons.mp member with same | old
      · rw [same]
        exact ⟨_, _, standing.goOn publisher.list itor left skips⟩
      · exact (serving.inner top other old).2
    finished := serving.finished
    spent := by
      refine serving.spent.moves _ rfl (fun _ => id) (fun _ _ => rfl) ?_
      intro obs state other member triggering atObs
      rw [top] at member
      rcases List.mem_cons.mp member with same | old
      · rw [same] at triggering atObs
        rw [at_itor] at atObs
        cases atObs
        exact absurd state (returned triggering)
      · exact ⟨other, List.mem_cons_of_mem _ old, triggering, atObs⟩
    left := serving.left
    late := serving.late
    strayed := by
      change (if notify.torn then _ else _) = []
      rw [standing.whole]
      exact serving.strayed }

/-- An observer that was attached for once is detached behind its callback. -/
theorem Serving.once (serving : Serving compare eventOf publisher)
    (top : publisher.notifies = notify :: rest)
    (triggering : notify.triggering = true)
    (at_itor : notify.itor = some itor)
    (joined : Joined ({ publisher with
      state := Function.update publisher.state itor .detached }.goOn
        (notify.lose itor) (rest.map (Notify.lose itor)) itor)) :
    Serving compare eventOf ({ publisher with
      state := Function.update publisher.state itor .detached }.goOn
        (notify.lose itor) (rest.map (Notify.lose itor)) itor) := by
  obtain ⟨passed, left, standing⟩ := serving.top top at_itor
  have others : ∀ other, other ≠ itor →
      Function.update publisher.state itor .detached other =
        publisher.state other := fun other apart =>
    Function.update_of_ne apart _ _
  have lost := standing.lose itor _ others
  have runs : (notify.lose itor).triggering = true := by
    rw [lose_triggering]
    exact triggering
  exact {
    joined
    outer := by
      intro other member
      obtain ⟨old, inside, same⟩ := List.mem_map.mp member
      rw [← same, lose_triggering]
      exact (serving.inner top old inside).1
    standing := by
      intro other member
      rcases List.mem_cons.mp member with same | old
      · rw [same]
        refine ⟨_, _, lost.goOn publisher.list itor left ?_⟩
        intro looking
        exact absurd (runs.symm.trans looking) Bool.true_eq_false.mp
      · obtain ⟨before, inside, same⟩ := List.mem_map.mp old
        obtain ⟨_, passed, left, outer⟩ := serving.inner top before inside
        rw [← same]
        exact ⟨passed, left, outer.lose itor _ others⟩
    finished := serving.finished
    spent := by
      refine serving.spent.moves _ rfl (fun _ => id) ?_ ?_
      · intro obs attached
        exact (update_isAttached publisher.state itor obs _ rfl attached).2
      · intro obs state other member running atObs
        rw [top] at member
        rcases List.mem_cons.mp member with same | old
        · rw [same, at_itor] at atObs
          cases atObs
          change Function.update publisher.state itor _ itor = _ at state
          rw [Function.update_self] at state
          cases state
        · refine ⟨other.lose itor,
            List.mem_cons_of_mem _ (List.mem_map_of_mem old), ?_, ?_⟩
          · rw [lose_triggering]
            exact running
          · rw [lose_itor]
            exact atObs
    left := by
      refine serving.left.moves _ (fun _ => Or.inl) ?_
      intro obs attached
      exact (update_isAttached publisher.state itor obs _ rfl attached).2
    late := serving.late
    strayed := by
      change (if (notify.lose itor).torn then _ else _) = []
      rw [lost.whole]
      exact serving.strayed }

/-- A notify that waits for a callback is not the one that looks at its next
observer. -/
theorem waits_below (top : publisher.notifies = notify :: rest)
    (looking : notify.triggering = false) (other : Notify ω)
    (member : other ∈ publisher.notifies) (triggering : other.triggering = true) :
    other ∈ rest := by
  rw [top] at member
  rcases List.mem_cons.mp member with same | old
  · rw [same, looking] at triggering
    cases triggering
  · exact old

/-- A touched observer that is to be triggered has not been triggered since. -/
theorem Spent.unspent (spent : Spent publisher)
    (top : publisher.notifies = notify :: rest)
    (looking : notify.triggering = false)
    (attached : (publisher.state itor).isAttached = true)
    (once : publisher.state itor = .attachedOnce →
      publisher.promised itor = false →
      ∀ outer ∈ rest, outer.itor ≠ some itor) :
    publisher.spent itor = none ∨ publisher.spent itor = some 0 := by
  cases counted : publisher.spent itor with
  | none => exact Or.inl rfl
  | some count =>
      refine Or.inr ?_
      have few := spent.few itor count counted
      cases state : publisher.state itor with
      | attachedOnce =>
          cases promised : publisher.promised itor with
          | true =>
              rw [← counted]
              exact spent.unused itor promised state
          | false =>
              by_cases one : count = 1
              · rw [one] at counted
                obtain ⟨other, member, triggering, atObs⟩ :=
                  spent.running itor counted state
                have below := waits_below top looking other member triggering
                exact absurd atObs (once state promised other below)
              · have zero : count = 0 := by omega
                rw [zero]
      | attached =>
          rw [spent.continues itor state] at counted
          cases counted
      | _ =>
          rw [state] at attached
          cases attached

theorem Spent.trigger (spent : Spent publisher)
    (top : publisher.notifies = notify :: rest)
    (looking : notify.triggering = false)
    (at_itor : notify.itor = some itor)
    (unspent : publisher.spent itor = none ∨ publisher.spent itor = some 0) :
    Spent (publisher.trigger notify rest itor) := by
  exact {
    few := by
      intro obs count counted
      change Function.update publisher.spent itor _ obs = some count at counted
      by_cases same : obs = itor
      · rw [same, Function.update_self] at counted
        rcases unspent with attaches | zero
        · rw [attaches] at counted
          cases counted
        · rw [zero] at counted
          cases counted
          exact Nat.le_refl 1
      · rw [Function.update_of_ne same] at counted
        exact spent.few obs count counted
    running := by
      intro obs counted state
      change Function.update publisher.spent itor _ obs = some 1 at counted
      by_cases same : obs = itor
      · rw [same]
        exact ⟨_, List.mem_cons_self, rfl, at_itor⟩
      · rw [Function.update_of_ne same] at counted
        obtain ⟨other, member, triggering, atObs⟩ :=
          spent.running obs counted state
        have below := waits_below top looking other member triggering
        exact ⟨other, List.mem_cons_of_mem _ below, triggering, atObs⟩
    unused := by
      intro obs promised state
      change Function.update publisher.spent itor _ obs = some 0
      by_cases same : obs = itor
      · rw [same] at promised state
        simp only [Publisher.trigger] at promised state
        rw [if_pos state, Function.update_self] at promised
        cases promised
      · rw [Function.update_of_ne same]
        refine spent.unused obs ?_ state
        simp only [Publisher.trigger] at promised
        split at promised
        · rwa [Function.update_of_ne same] at promised
        · exact promised
    continues := by
      intro obs state
      change Function.update publisher.spent itor _ obs = none
      have attaches := spent.continues obs state
      by_cases same : obs = itor
      · rw [same] at attaches ⊢
        rw [Function.update_self, attaches]
        rfl
      · rw [Function.update_of_ne same]
        exact attaches }

theorem Serving.trigger (serving : Serving compare eventOf publisher)
    (top : publisher.notifies = notify :: rest)
    (looking : notify.triggering = false)
    (at_itor : notify.itor = some itor)
    (attached : (publisher.state itor).isAttached = true)
    (once : publisher.state itor = .attachedOnce →
      publisher.promised itor = false → ∀ outer ∈ rest, outer.itor ≠ some itor)
    (joined : Joined (publisher.trigger notify rest itor)) :
    Serving compare eventOf (publisher.trigger notify rest itor) := by
  obtain ⟨passed, left, standing⟩ := serving.top top at_itor
  have unspent := serving.spent.unspent top looking attached once
  exact {
    joined
    outer := fun other member => (serving.inner top other member).1
    standing := by
      intro other member
      rcases List.mem_cons.mp member with same | old
      · rw [same]
        exact ⟨_, _, standing.trigger publisher.list itor left looking⟩
      · exact (serving.inner top other old).2
    finished := serving.finished
    spent := serving.spent.trigger top looking at_itor unspent
    left := serving.left
    late := by
      have stayed : publisher.left itor = false := by
        by_contra isLeft
        have gone := serving.left itor (Bool.eq_true_of_not_eq_false isLeft)
        rw [attached] at gone
        cases gone
      change (if publisher.left itor then _ else _) = []
      rw [stayed]
      exact serving.late
    strayed := serving.strayed }

theorem Serving.finish (serving : Serving compare eventOf publisher)
    (top : publisher.notifies = notify :: rest)
    (looking : notify.triggering = false) (at_head : notify.itor = none)
    (stood : ∀ outer ∈ rest, ∀ obs ∈ outer.itor,
      obs ∈ publisher.list.items → publisher.state obs ≠ .detached)
    (joined : Joined (publisher.finish notify rest)) :
    Serving compare eventOf (publisher.finish notify rest) := by
  have states : ∀ obs, ((publisher.finish notify rest).state obs).isAttached =
      true → publisher.state obs = (publisher.finish notify rest).state obs := by
    intro obs attached
    have state : (publisher.finish notify rest).state obs = _ :=
      Publisher.cleanup_state publisher.list publisher.state obs
    rw [state] at attached ⊢
    split at attached
    · cases attached
    · rename_i stays
      rw [if_neg stays]
  have unlinked : rest.map (Notify.unlink fun obs =>
      publisher.list.items.contains obs && publisher.state obs == .detached) =
        rest := by
    apply (List.map_congr_left ?_).trans rest.map_id
    intro outer member
    apply unlink_other
    intro obs atObs
    rw [Bool.and_eq_false_iff]
    by_cases inside : obs ∈ publisher.list.items
    · exact Or.inr (beq_false_of_ne (stood outer member obs atObs inside))
    · refine Or.inl ?_
      rw [List.contains_eq_mem]
      exact decide_eq_false inside
  have notifies : (publisher.finish notify rest).notifies = rest := unlinked
  have items : (publisher.finish notify rest).list.items = _ :=
    Publisher.cleanup_items publisher.list publisher.state
  exact {
    joined
    outer := by
      intro outer member
      rw [notifies] at member
      exact (serving.inner top outer (List.mem_of_mem_tail member)).1
    standing := by
      intro outer member
      rw [notifies] at member
      obtain ⟨_, passed, left, standing⟩ := serving.inner top outer member
      refine ⟨passed.filter (fun obs => publisher.state obs != .detached),
        left.filter (fun obs => publisher.state obs != .detached), ?_⟩
      rw [items]
      have filtered := standing.filter
        (fun obs => publisher.state obs != .detached) ?_ ?_
      · apply filtered.states
        intro obs attached
        have state : (publisher.finish notify rest).state obs = _ :=
          Publisher.cleanup_state publisher.list publisher.state obs
        rw [state, if_neg]
        · exact attached
        · intro both
          exact isAttached_not_detached _ attached both.2
      · intro obs atObs
        apply bne_iff_ne.mpr
        apply stood outer member obs atObs
        obtain ⟨more, rfl⟩ := standing.left_cons obs atObs
        rw [standing.split]
        exact List.mem_append_right _ List.mem_cons_self
      · intro obs attached
        exact bne_iff_ne.mpr (isAttached_not_detached _ attached)
    finished := by
      intro ended member
      rcases List.mem_append.mp member with old | single
      · exact serving.finished ended old
      · rw [List.mem_singleton.mp single]
        obtain ⟨passed, left, standing⟩ := serving.standing notify
          (by rw [top]; exact List.mem_cons_self)
        have nothing := standing.left_nil at_head
        refine { nodup := standing.nodup, turn := ?_ }
        intro obs due kept
        rcases standing.turn obs due kept with fired | ⟨ahead, _⟩
        · exact fired
        · have member := mem_ahead obs ahead
          rw [nothing] at member
          cases member
    spent := by
      refine serving.spent.moves _ rfl (fun _ => id) states ?_
      intro obs _ other member triggering atObs
      have below := waits_below top looking other member triggering
      exact ⟨other, by rw [notifies]; exact below, triggering, atObs⟩
    left := serving.left.moves _ (fun _ => Or.inl) states
    late := serving.late
    strayed := serving.strayed }

end Top

theorem serving_turn (publisher : Publisher ω) (act : PubAct ω)
    (serving : Serving compare eventOf publisher)
    (clean : Undisturbed compare eventOf publisher act) :
    Serving compare eventOf (publisher.turn compare eventOf act) := by
  have joined :=
    joined_turn compare eventOf publisher act serving.joined clean.marked
  have step := publisher.turned compare eventOf act
  generalize publisher.turn compare eventOf act = after at step joined ⊢
  cases step with
  | same => exact serving
  | revive once obs free state => exact serving.revive once obs joined
  | link once obs free state alone =>
      exact serving.link once obs free alone (clean.fresh free alone) joined
  | detach obs free => exact serving.detach obs (clean.stood free) joined
  | notify event free => exact serving.notify event free joined
  | ret notify rest itor top triggering at_itor state =>
      apply serving.goOn top at_itor ?_ (fun _ => state) joined
      intro looking
      exact absurd (triggering.symm.trans looking) Bool.true_eq_false.mp
  | once notify rest itor top triggering at_itor state =>
      exact serving.once top triggering at_itor joined
  | finish notify rest top looking at_head =>
      refine serving.finish top looking at_head ?_ joined
      have stood := clean.stood notify (by rw [top]; rfl) looking at_head
      rw [top] at stood
      exact stood
  | trigger notify rest itor top looking at_itor heeds state =>
      refine serving.trigger top looking at_itor state ?_ joined
      intro isOnce unpromised
      have once := clean.once notify (by rw [top]; rfl) looking itor at_itor
        heeds isOnce unpromised
      rw [top] at once
      exact once
  | pass notify rest itor top looking at_itor skips =>
      apply serving.goOn top at_itor (fun _ => skips) ?_ joined
      intro triggering
      exact absurd (triggering.symm.trans looking) Bool.true_eq_false.mp

end Serving

/-- In a run without the four disturbances, every notify triggers what is due
once, a touched observer is triggered once for each touch, nothing is triggered
after its detach, and no link of an unlinked node is followed. -/
theorem delivers_along (compare : Nat → Nat → Int) (eventOf : ω → Nat)
    (acts : List (PubAct ω))
    (clean : Along (Publisher.turn compare eventOf)
      (Undisturbed compare eventOf) (Publisher.create ω) acts) :
    Always (Publisher.turn compare eventOf) Delivery (Publisher.create ω)
      acts := by
  apply always_imp (Serving compare eventOf) Delivery
  · intro publisher serving
    exact serving.delivers
  · apply always_of_along (Serving compare eventOf)
      (Undisturbed compare eventOf)
    · intro publisher act serving undisturbed
      exact serving_turn publisher act serving undisturbed
    · exact serving_create
    · exact clean

/-- Observer 1 is touched, and the callback of observer 0 detaches observer 2 and
notifies another event. -/
theorem nestedNotify_delivers :
    Always (Publisher.turn (fun new old => (new : Int) - old) fun _ => 7)
      Delivery (Publisher.create Nat)
      [.attach false 0, .attach true 1, .attach false 2, .notify 7, .tick,
        .detach 2, .notify 8, .tick, .tick, .tick, .tick, .ret, .tick, .ret,
        .tick, .attach true 1, .notify 7, .tick] := by
  apply delivers_along
  decide

/-- The callback of observer 0 notifies another event and then detaches its own
observer: the outer notify follows the link of the unlinked node to itself, and
observer 1 never gets its turn. In a second run a touched observer is triggered
again inside its own callback. -/
theorem nestedNotify_astray :
    let compare := fun new old : Nat => (new : Int) - old
    let publisher := run (Publisher.turn compare fun _ => 7)
      (Publisher.create Nat)
      [.attach false 0, .attach false 1, .notify 7, .tick, .notify 8, .tick,
        .tick, .tick, .detach 0, .ret]
    let again := run (Publisher.turn compare fun _ => 7) (Publisher.create Nat)
      [.attach true 0, .notify 7, .tick, .notify 7, .tick]
    publisher.list.items = [1] ∧
      publisher.notifies.map (fun notify => notify.itor) = [some 0] ∧
      (publisher.turn compare (fun _ => 7) .tick).notifies.map
        (fun notify => notify.itor) = [some 0] ∧
      ¬ Delivery publisher ∧ ¬ Delivery again := by
  refine ⟨by decide, by decide, by decide, ?_, ?_⟩
  · intro delivers
    have strayed := delivers.strayed
    revert strayed
    decide
  · intro delivers
    have few := delivers.touched 0 2 (by decide)
    exact absurd few (by decide)

end XR872.SysCtrl
