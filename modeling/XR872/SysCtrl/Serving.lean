/-
Where a notify stands, and what is promised of it.

A notify that runs stands in the list: what is behind it has had its turn, what
is ahead of it gets one.
-/

import XR872.SysCtrl.Membership

namespace XR872.SysCtrl

open Chains
open Runs

variable {ω : Type}

/-! ### Where a notify stands -/

/-- What a notify has still to look at, of the part of the list that begins with
`itor`. -/
def Notify.ahead (notify : Notify ω) (left : List ω) : List ω :=
  if notify.triggering then left.tail else left

structure Standing (compare : Nat → Nat → Int) (eventOf : ω → Nat)
    (items : List ω) (state : ω → ObserverState) (notify : Notify ω)
    (passed left : List ω) : Prop where
  split : items = passed ++ left
  itor : notify.itor = nodeOf left
  stands : notify.triggering = true → left ≠ []
  whole : notify.torn = false
  nodup : notify.fired.Nodup
  once : ∀ obs ∈ notify.fired, obs ∉ notify.ahead left
  turn : ∀ obs, notify.due obs = true → obs ∉ notify.lost →
    obs ∈ notify.fired ∨
      obs ∈ notify.ahead left ∧ (state obs).isAttached = true
  heeds : ∀ obs, notify.due obs = true →
    compare notify.event (eventOf obs) = 0

section Standing

variable {compare : Nat → Nat → Int} {eventOf : ω → Nat} {items : List ω}
  {state : ω → ObserverState} {notify : Notify ω} {passed left : List ω}

theorem unlink_other (gone : ω → Bool)
    (stays : ∀ obs, notify.itor = some obs → gone obs = false) :
    notify.unlink gone = notify := by
  unfold Notify.unlink
  cases itor : notify.itor with
  | none => rfl
  | some obs =>
      simp only [stays obs itor]
      rfl

theorem mem_ahead (obs : ω) (member : obs ∈ notify.ahead left) : obs ∈ left := by
  unfold Notify.ahead at member
  split at member
  · exact List.mem_of_mem_tail member
  · exact member

theorem Standing.left_cons
    (standing : Standing compare eventOf items state notify passed left)
    (obs : ω) (stands : notify.itor = some obs) : ∃ more, left = obs :: more := by
  have node := standing.itor
  rw [stands] at node
  cases left with
  | nil => cases node
  | cons first more =>
      cases node
      exact ⟨more, rfl⟩

theorem Standing.left_nil
    (standing : Standing compare eventOf items state notify passed left)
    (ends : notify.itor = none) : left = [] := by
  have node := standing.itor
  rw [ends] at node
  cases left with
  | nil => rfl
  | cons first more => cases node

theorem Standing.states
    (standing : Standing compare eventOf items state notify passed left)
    (after : ω → ObserverState)
    (stays : ∀ obs, (state obs).isAttached = true →
      (after obs).isAttached = true) :
    Standing compare eventOf items after notify passed left :=
  { standing with
    turn := by
      intro obs due kept
      rcases standing.turn obs due kept with fired | ⟨ahead, attached⟩
      · exact Or.inl fired
      · exact Or.inr ⟨ahead, stays obs attached⟩ }

/-- Observers leave the list, but not the one that the notify stands at, and only
if they are not attached. -/
theorem Standing.filter
    (standing : Standing compare eventOf items state notify passed left)
    (keep : ω → Bool)
    (stays : ∀ obs, notify.itor = some obs → keep obs = true)
    (attached : ∀ obs, (state obs).isAttached = true → keep obs = true) :
    Standing compare eventOf (items.filter keep) state notify
      (passed.filter keep) (left.filter keep) := by
  have ahead : notify.ahead (left.filter keep) =
      (notify.ahead left).filter keep := by
    unfold Notify.ahead
    cases left with
    | nil => simp
    | cons first rest =>
        have first_stays := stays first standing.itor
        rw [List.filter_cons_of_pos first_stays]
        split
        · rfl
        · rw [List.filter_cons_of_pos first_stays]
  exact {
    split := by rw [standing.split, List.filter_append]
    itor := by
      rw [standing.itor]
      cases left with
      | nil => rfl
      | cons first rest =>
          rw [List.filter_cons_of_pos (stays first standing.itor)]
          rfl
    stands := by
      intro triggering
      have nonempty := standing.stands triggering
      cases left with
      | nil => exact absurd rfl nonempty
      | cons first rest =>
          rw [List.filter_cons_of_pos (stays first standing.itor)]
          exact List.cons_ne_nil _ _
    whole := standing.whole
    nodup := standing.nodup
    once := by
      intro obs fired member
      rw [ahead] at member
      exact standing.once obs fired (List.mem_filter.mp member).1
    turn := by
      intro obs due kept
      rw [ahead]
      rcases standing.turn obs due kept with fired | ⟨member, isAttached⟩
      · exact Or.inl fired
      · exact Or.inr ⟨List.mem_filter.mpr ⟨member, attached obs isAttached⟩,
          isAttached⟩
    heeds := standing.heeds }

/-- An observer is put at the end of the list, while the callback of the notify
runs. -/
theorem Standing.addTail
    (standing : Standing compare eventOf items state notify passed left)
    (obs : ω) (triggering : notify.triggering = true)
    (new : obs ∉ notify.fired) :
    Standing compare eventOf (items ++ [obs]) state notify passed
      (left ++ [obs]) := by
  have nonempty := standing.stands triggering
  have ahead : notify.ahead (left ++ [obs]) = notify.ahead left ++ [obs] := by
    unfold Notify.ahead
    rw [if_pos triggering, if_pos triggering, List.tail_append_of_ne_nil nonempty]
  exact {
    split := by rw [standing.split, List.append_assoc]
    itor := by
      rw [standing.itor]
      cases left with
      | nil => exact absurd rfl nonempty
      | cons first rest => rfl
    stands := fun _ => List.append_ne_nil_of_left_ne_nil nonempty _
    whole := standing.whole
    nodup := standing.nodup
    once := by
      intro other fired member
      rw [ahead] at member
      rcases List.mem_append.mp member with old | single
      · exact standing.once other fired old
      · rw [List.mem_singleton.mp single] at fired
        exact new fired
    turn := by
      intro other due kept
      rw [ahead]
      rcases standing.turn other due kept with fired | ⟨member, attached⟩
      · exact Or.inl fired
      · exact Or.inr ⟨List.mem_append_left _ member, attached⟩
    heeds := standing.heeds }

variable [DecidableEq ω]

theorem lose_event (obs : ω) : (notify.lose obs).event = notify.event := by
  unfold Notify.lose
  split <;> rfl

theorem lose_itor (obs : ω) : (notify.lose obs).itor = notify.itor := by
  unfold Notify.lose
  split <;> rfl

theorem lose_triggering (obs : ω) :
    (notify.lose obs).triggering = notify.triggering := by
  unfold Notify.lose
  split <;> rfl

theorem lose_due (obs : ω) : (notify.lose obs).due = notify.due := by
  unfold Notify.lose
  split <;> rfl

theorem lose_fired (obs : ω) : (notify.lose obs).fired = notify.fired := by
  unfold Notify.lose
  split <;> rfl

theorem lose_torn (obs : ω) : (notify.lose obs).torn = notify.torn := by
  unfold Notify.lose
  split <;> rfl

theorem mem_lose (obs other : ω) (outside : other ∉ (notify.lose obs).lost) :
    other ∉ notify.lost ∧ (other = obs → obs ∈ notify.fired) := by
  unfold Notify.lose at outside
  split at outside
  · rename_i fired
    exact ⟨outside, fun _ => fired⟩
  · obtain ⟨apart, old⟩ := not_or.mp (fun either => outside (List.mem_cons.mpr either))
    exact ⟨old, fun same => absurd same apart⟩

theorem lose_ahead (obs : ω) : (notify.lose obs).ahead left = notify.ahead left := by
  unfold Notify.ahead
  rw [lose_triggering]

/-- An observer is detached: the notify forgets it, if it has not triggered it
yet. -/
theorem Standing.lose
    (standing : Standing compare eventOf items state notify passed left)
    (obs : ω) (after : ω → ObserverState)
    (others : ∀ other, other ≠ obs → after other = state other) :
    Standing compare eventOf items after (notify.lose obs) passed left := by
  exact {
    split := standing.split
    itor := (lose_itor obs).trans standing.itor
    stands := by
      rw [lose_triggering]
      exact standing.stands
    whole := (lose_torn obs).trans standing.whole
    nodup := by
      rw [lose_fired]
      exact standing.nodup
    once := by
      rw [lose_fired, lose_ahead]
      exact standing.once
    turn := by
      intro other due outside
      rw [lose_due] at due
      rw [lose_fired, lose_ahead]
      obtain ⟨kept, hadTurn⟩ := mem_lose obs other outside
      rcases standing.turn other due kept with fired | ⟨ahead, attached⟩
      · exact Or.inl fired
      · by_cases same : other = obs
        · rw [same]
          exact Or.inl (hadTurn same)
        · rw [others other same]
          exact Or.inr ⟨ahead, attached⟩
    heeds := by
      intro other due
      rw [lose_due] at due
      rw [lose_event]
      exact standing.heeds other due }

theorem standing_new (publisher : Publisher ω) (joined : Joined publisher)
    (event : Nat) :
    Standing compare eventOf publisher.list.items publisher.state
      { event, itor := publisher.list.links.next none, triggering := false,
        due := fun obs => compare event (eventOf obs) == 0 &&
          (publisher.state obs).isAttached,
        fired := [], lost := [], torn := false } [] publisher.list.items := by
  exact {
    split := rfl
    itor := publisher.list.next_head
    stands := fun triggering => absurd triggering Bool.false_ne_true
    whole := rfl
    nodup := List.nodup_nil
    once := fun _ member => absurd member List.not_mem_nil
    turn := by
      intro obs due _
      have attached := (Bool.and_eq_true_iff.mp due).2
      exact Or.inr ⟨joined.attached obs attached, attached⟩
    heeds := fun obs due => eq_of_beq (Bool.and_eq_true_iff.mp due).1 }

theorem Standing.goOn (chain : Chain ω) (itor : ω) (rest : List ω)
    (standing : Standing compare eventOf chain.items state notify passed
      (itor :: rest))
    (skips : notify.triggering = false →
      ¬ (compare notify.event (eventOf itor) = 0 ∧
        (state itor).isAttached = true)) :
    Standing compare eventOf chain.items state
      { notify with
        itor := chain.links.next (some itor)
        triggering := false
        torn := false } (passed ++ [itor]) rest := by
  have inner : ∀ obs, obs ∈ rest → obs ∈ notify.ahead (itor :: rest) := by
    intro obs member
    unfold Notify.ahead
    split
    · exact member
    · exact List.mem_cons_of_mem _ member
  exact {
    split := by
      rw [standing.split, List.append_assoc]
      rfl
    itor := chain.next_item passed rest itor standing.split
    stands := fun triggering => absurd triggering Bool.false_ne_true
    whole := rfl
    nodup := standing.nodup
    once := fun obs fired member => standing.once obs fired (inner obs member)
    turn := by
      intro obs due kept
      rcases standing.turn obs due kept with fired | ⟨member, attached⟩
      · exact Or.inl fired
      · refine Or.inr ⟨?_, attached⟩
        unfold Notify.ahead at member
        cases triggering : notify.triggering with
        | true =>
            rw [if_pos triggering] at member
            exact member
        | false =>
            rw [if_neg (by rw [triggering]; exact Bool.false_ne_true)] at member
            rcases List.mem_cons.mp member with same | later
            · rw [same] at due attached
              exact absurd ⟨standing.heeds itor due, attached⟩
                (skips triggering)
            · exact later
    heeds := standing.heeds }

theorem Standing.trigger (chain : Chain ω) (itor : ω) (rest : List ω)
    (standing : Standing compare eventOf chain.items state notify passed
      (itor :: rest))
    (looking : notify.triggering = false) :
    Standing compare eventOf chain.items state
      { notify with triggering := true, fired := itor :: notify.fired } passed
      (itor :: rest) := by
  have ahead : notify.ahead (itor :: rest) = itor :: rest := by
    unfold Notify.ahead
    rw [looking]
    rfl
  have once := standing.once
  rw [ahead] at once
  have turns : ∀ obs, notify.due obs = true → obs ∉ notify.lost →
      obs ∈ notify.fired ∨
        obs ∈ itor :: rest ∧ (state obs).isAttached = true := by
    intro obs due kept
    rw [← ahead]
    exact standing.turn obs due kept
  have nodup := chain.nodup
  rw [standing.split] at nodup
  have apart := (List.nodup_cons.mp (List.nodup_append.mp nodup).2.1).1
  exact {
    split := standing.split
    itor := standing.itor
    stands := fun _ => List.cons_ne_nil _ _
    whole := standing.whole
    nodup := by
      apply List.nodup_cons.mpr ⟨?_, standing.nodup⟩
      intro fired
      exact once itor fired List.mem_cons_self
    once := by
      intro obs fired member
      change obs ∈ rest at member
      rcases List.mem_cons.mp fired with same | old
      · rw [same] at member
        exact apart member
      · exact once obs old (List.mem_cons_of_mem _ member)
    turn := by
      intro obs due kept
      rcases turns obs due kept with fired | ⟨member, attached⟩
      · exact Or.inl (List.mem_cons_of_mem _ fired)
      · rcases List.mem_cons.mp member with same | later
        · rw [same]
          exact Or.inl List.mem_cons_self
        · exact Or.inr ⟨later, attached⟩
    heeds := standing.heeds }

end Standing

/-! ### What is promised -/

variable [DecidableEq ω]

/-- What is promised of every state. -/
structure Delivery (publisher : Publisher ω) : Prop where
  /-- A notify that has ended has triggered everything that was due, and was not
  detached before its turn, once. -/
  finished : ∀ notify ∈ publisher.finished, ∀ obs, notify.due obs = true →
    obs ∉ notify.lost → notify.fired.count obs = 1
  /-- A notify that runs triggers nothing twice, and its links lead on to what is
  still due. -/
  running : ∀ notify ∈ publisher.notifies, notify.fired.Nodup ∧
    ∀ obs, notify.due obs = true → obs ∉ notify.lost → obs ∈ notify.fired ∨
      ∃ steps, publisher.list.links.next^[steps] notify.itor = some obs
  /-- One trigger for each touch. -/
  touched : ∀ obs count, publisher.spent obs = some count → count ≤ 1
  /-- Nothing is triggered after its detach. -/
  late : publisher.late = []
  /-- No link of an unlinked node was followed. -/
  strayed : publisher.strayed = []

/-- No node is unlinked on which a notify stands. -/
def KeepsStood (publisher : Publisher ω) : PubAct ω → Prop
  | .detach obs => publisher.free = true → publisher.base = .idle →
      ∀ notify ∈ publisher.notifies, notify.itor ≠ some obs
  | .tick => ∀ notify ∈ publisher.notifies.head?, notify.triggering = false →
      notify.itor = none → ∀ outer ∈ publisher.notifies.tail,
        ∀ obs ∈ outer.itor, obs ∈ publisher.list.items →
          publisher.state obs ≠ .detached
  | _ => True

/-- A touched observer is not triggered inside its own callback, unless it was
touched again there. -/
def TriggersOnce (compare : Nat → Nat → Int) (eventOf : ω → Nat)
    (publisher : Publisher ω) : PubAct ω → Prop
  | .tick => ∀ notify ∈ publisher.notifies.head?, notify.triggering = false →
      ∀ obs ∈ notify.itor, compare notify.event (eventOf obs) = 0 →
        publisher.state obs = .attachedOnce → publisher.promised obs = false →
        ∀ outer ∈ publisher.notifies.tail, outer.itor ≠ some obs
  | _ => True

/-- No observer is linked again while a notify runs that has triggered it. -/
def LinksNew (publisher : Publisher ω) : PubAct ω → Prop
  | .attach _ obs => publisher.free = true →
      publisher.list.isAlone obs = true →
      ∀ notify ∈ publisher.notifies, obs ∉ notify.fired
  | _ => True

structure Undisturbed (compare : Nat → Nat → Int) (eventOf : ω → Nat)
    (publisher : Publisher ω) (act : PubAct ω) : Prop where
  marked : FindsMarked publisher act
  stood : KeepsStood publisher act
  once : TriggersOnce compare eventOf publisher act
  fresh : LinksNew publisher act

section Decidable

variable (compare : Nat → Nat → Int) (eventOf : ω → Nat)
  (publisher : Publisher ω)

instance : (act : PubAct ω) → Decidable (FindsMarked publisher act)
  | .attach _ obs => inferInstanceAs (Decidable (publisher.free = true →
      publisher.state obs = .detached → obs ∈ publisher.list.items))
  | .detach _ | .notify _ | .ret | .tick => isTrue trivial

instance : (act : PubAct ω) → Decidable (KeepsStood publisher act)
  | .detach obs => inferInstanceAs (Decidable (publisher.free = true →
      publisher.base = .idle →
      ∀ notify ∈ publisher.notifies, notify.itor ≠ some obs))
  | .tick => inferInstanceAs (Decidable (∀ notify ∈ publisher.notifies.head?,
      notify.triggering = false → notify.itor = none →
      ∀ outer ∈ publisher.notifies.tail, ∀ obs ∈ outer.itor,
        obs ∈ publisher.list.items → publisher.state obs ≠ .detached))
  | .attach _ _ | .notify _ | .ret => isTrue trivial

instance : (act : PubAct ω) →
    Decidable (TriggersOnce compare eventOf publisher act)
  | .tick => inferInstanceAs (Decidable (∀ notify ∈ publisher.notifies.head?,
      notify.triggering = false → ∀ obs ∈ notify.itor,
        compare notify.event (eventOf obs) = 0 →
        publisher.state obs = .attachedOnce → publisher.promised obs = false →
        ∀ outer ∈ publisher.notifies.tail, outer.itor ≠ some obs))
  | .attach _ _ | .detach _ | .notify _ | .ret => isTrue trivial

instance : (act : PubAct ω) → Decidable (LinksNew publisher act)
  | .attach _ obs => inferInstanceAs (Decidable (publisher.free = true →
      publisher.list.isAlone obs = true →
      ∀ notify ∈ publisher.notifies, obs ∉ notify.fired))
  | .detach _ | .notify _ | .ret | .tick => isTrue trivial

instance (act : PubAct ω) :
    Decidable (Undisturbed compare eventOf publisher act) :=
  decidable_of_iff
    (FindsMarked publisher act ∧ KeepsStood publisher act ∧
      TriggersOnce compare eventOf publisher act ∧ LinksNew publisher act)
    ⟨fun ⟨marked, stood, once, fresh⟩ => { marked, stood, once, fresh },
      fun clean => ⟨clean.marked, clean.stood, clean.once, clean.fresh⟩⟩

end Decidable

/-! ### The invariant -/

structure Ended (notify : Notify ω) : Prop where
  nodup : notify.fired.Nodup
  turn : ∀ obs, notify.due obs = true → obs ∉ notify.lost → obs ∈ notify.fired

/-- The counts of touched observers: one that has been triggered is attached for
once only as long as its callback runs. -/
structure Spent (publisher : Publisher ω) : Prop where
  few : ∀ obs count, publisher.spent obs = some count → count ≤ 1
  running : ∀ obs, publisher.spent obs = some 1 →
    publisher.state obs = .attachedOnce →
    ∃ notify ∈ publisher.notifies, notify.triggering = true ∧
      notify.itor = some obs
  unused : ∀ obs, publisher.promised obs = true →
    publisher.state obs = .attachedOnce → publisher.spent obs = some 0
  continues : ∀ obs, publisher.state obs = .attached →
    publisher.spent obs = none

def Left (publisher : Publisher ω) : Prop :=
  ∀ obs, publisher.left obs = true →
    (publisher.state obs).isAttached = false

structure Serving (compare : Nat → Nat → Int) (eventOf : ω → Nat)
    (publisher : Publisher ω) : Prop where
  joined : Joined publisher
  /-- Inside of a notify, every outer one waits for its callback. -/
  outer : ∀ notify ∈ publisher.notifies.tail, notify.triggering = true
  standing : ∀ notify ∈ publisher.notifies, ∃ passed left,
    Standing compare eventOf publisher.list.items publisher.state notify passed
      left
  finished : ∀ notify ∈ publisher.finished, Ended notify
  spent : Spent publisher
  left : Left publisher
  late : publisher.late = []
  strayed : publisher.strayed = []

section Serving

variable {compare : Nat → Nat → Int} {eventOf : ω → Nat}
  {publisher : Publisher ω}

theorem serving_create : Serving compare eventOf (Publisher.create ω) := by
  exact {
    joined := joined_create
    outer := fun _ member => absurd member List.not_mem_nil
    standing := fun _ member => absurd member List.not_mem_nil
    finished := fun _ member => absurd member List.not_mem_nil
    spent := {
      few := by
        intro obs count spent
        cases spent
      running := by
        intro obs spent
        cases spent
      unused := by
        intro obs promised
        cases promised
      continues := fun _ _ => rfl }
    left := fun _ _ => rfl
    late := rfl
    strayed := rfl }

theorem Serving.delivers (serving : Serving compare eventOf publisher) :
    Delivery publisher := by
  exact {
    finished := by
      intro notify member obs due kept
      have ended := serving.finished notify member
      exact List.count_eq_one_of_mem ended.nodup (ended.turn obs due kept)
    running := by
      intro notify member
      obtain ⟨passed, left, standing⟩ := serving.standing notify member
      refine ⟨standing.nodup, ?_⟩
      intro obs due kept
      rcases standing.turn obs due kept with fired | ⟨ahead, _⟩
      · exact Or.inl fired
      · refine Or.inr ?_
        obtain ⟨inner, after, split⟩ :=
          List.append_of_mem (mem_ahead obs ahead)
        refine ⟨inner.length, ?_⟩
        rw [standing.itor, split]
        apply publisher.list.next_iterate passed
        rw [← split]
        exact standing.split
    touched := serving.spent.few
    late := serving.late
    strayed := serving.strayed }

/-- A call is made while every notify that runs waits for its callback. -/
theorem Serving.waits (serving : Serving compare eventOf publisher)
    (free : publisher.free = true) :
    ∀ notify ∈ publisher.notifies, notify.triggering = true := by
  intro notify member
  unfold Publisher.free at free
  cases top : publisher.notifies with
  | nil =>
      rw [top] at member
      cases member
  | cons first rest =>
      rw [top] at member
      rcases List.mem_cons.mp member with same | inner
      · simp only [top] at free
        rw [same]
        exact free
      · exact serving.outer notify (by rw [top]; exact inner)

/-! ### Touches and detaches -/

theorem Spent.granted (spent : Spent publisher) (once : Bool) (obs : ω)
    (list : Chain ω) : Spent (publisher.granted once obs list) := by
  exact {
    few := by
      intro other count counted
      change Function.update publisher.spent obs _ other = some count at counted
      by_cases same : other = obs
      · rw [same, Function.update_self] at counted
        cases once with
        | true =>
            cases counted
            exact Nat.zero_le 1
        | false => cases counted
      · rw [Function.update_of_ne same] at counted
        exact spent.few other count counted
    running := by
      intro other counted state
      change Function.update publisher.spent obs _ other = some 1 at counted
      by_cases same : other = obs
      · rw [same, Function.update_self] at counted
        cases once <;> cases counted
      · rw [Function.update_of_ne same] at counted
        rw [granted_state once obs other list same] at state
        exact spent.running other counted state
    unused := by
      intro other promised state
      change Function.update publisher.spent obs _ other = some 0
      by_cases same : other = obs
      · rw [same] at state ⊢
        change Function.update publisher.state obs _ obs = _ at state
        rw [Function.update_self] at state ⊢
        cases once with
        | true => rfl
        | false => cases state
      · change Function.update publisher.promised obs true other = true
          at promised
        rw [Function.update_of_ne same] at promised ⊢
        rw [granted_state once obs other list same] at state
        exact spent.unused other promised state
    continues := by
      intro other state
      change Function.update publisher.spent obs _ other = none
      by_cases same : other = obs
      · rw [same] at state ⊢
        change Function.update publisher.state obs _ obs = _ at state
        rw [Function.update_self] at state ⊢
        cases once with
        | true => cases state
        | false => rfl
      · rw [Function.update_of_ne same]
        rw [granted_state once obs other list same] at state
        exact spent.continues other state }

/-- The states of touched and attached observers only go, and the callbacks that
run stay. -/
theorem Spent.moves (spent : Spent publisher) (after : Publisher ω)
    (counts : after.spent = publisher.spent)
    (promises : ∀ obs, after.promised obs = true →
      publisher.promised obs = true)
    (states : ∀ obs, (after.state obs).isAttached = true →
      publisher.state obs = after.state obs)
    (running : ∀ obs, after.state obs = .attachedOnce →
      ∀ notify ∈ publisher.notifies, notify.triggering = true →
        notify.itor = some obs →
        ∃ other ∈ after.notifies, other.triggering = true ∧
          other.itor = some obs) : Spent after := by
  exact {
    few := by
      rw [counts]
      exact spent.few
    running := by
      intro obs counted state
      rw [counts] at counted
      have old := states obs (by rw [state]; rfl)
      obtain ⟨notify, member, triggering, itor⟩ :=
        spent.running obs counted (old.trans state)
      exact running obs state notify member triggering itor
    unused := by
      intro obs promised state
      rw [counts]
      have old := states obs (by rw [state]; rfl)
      exact spent.unused obs (promises obs promised) (old.trans state)
    continues := by
      intro obs state
      rw [counts]
      exact spent.continues obs ((states obs (by rw [state]; rfl)).trans state) }

theorem granted_attached (once : Bool) (obs : ω) (list : Chain ω) (other : ω)
    (attached : (publisher.state other).isAttached = true) :
    ((publisher.granted once obs list).state other).isAttached = true := by
  by_cases same : other = obs
  · rw [same]
    exact granted_isAttached once obs list
  · rw [granted_state once obs other list same]
    exact attached

theorem Left.granted (gone : Left publisher) (once : Bool) (obs : ω)
    (list : Chain ω) : Left (publisher.granted once obs list) := by
  intro other isLeft
  change Function.update publisher.left obs false other = true at isLeft
  by_cases same : other = obs
  · rw [same, Function.update_self] at isLeft
    cases isLeft
  · rw [Function.update_of_ne same] at isLeft
    rw [granted_state once obs other list same]
    exact gone other isLeft

theorem Left.moves (gone : Left publisher) (after : Publisher ω)
    (left : ∀ obs, after.left obs = true → publisher.left obs = true ∨
      (after.state obs).isAttached = false)
    (states : ∀ obs, (after.state obs).isAttached = true →
      publisher.state obs = after.state obs) : Left after := by
  intro obs isLeft
  rcases left obs isLeft with old | now
  · cases attached : (after.state obs).isAttached with
    | false => rfl
    | true =>
        have before := gone obs old
        rw [states obs attached, attached] at before
        cases before
  · exact now

end Serving

end XR872.SysCtrl
