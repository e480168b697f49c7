/-
The publisher: its observers, and the notifies that run.

A callback can call the publisher again, so the notifies that run are a stack.
Only the notify on top moves: its callback makes a call or returns, or its loop
takes the next observer. What the statements need of the past is kept beside the
fields of the source.
-/

import XR872.Library.Chain
import XR872.Library.Run

namespace XR872.SysCtrl

open Chains
open Runs

variable {ω : Type} [DecidableEq ω]

inductive ObserverState where
  | ilde
  | attached
  | attachedOnce
  | detached
  | working
deriving DecidableEq, Repr

/-- The states that `notify` triggers. -/
def ObserverState.isAttached : ObserverState → Bool
  | .attached | .attachedOnce => true
  | _ => false

inductive PublisherState where
  | idle
  | working
deriving DecidableEq, Repr

/-- A `notify` that runs. -/
structure Notify (ω : Type) where
  event : Nat
  /-- The node of `itor`; `none` is the head. -/
  itor : Option ω
  /-- The callback of `itor` has not returned. -/
  triggering : Bool
  /-- The observers that were attached and matched at the start. -/
  due : ω → Bool
  /-- The observers triggered so far, the last one first. -/
  fired : List ω
  /-- The observers detached before they were triggered. -/
  lost : List ω
  /-- The node of `itor` has been unlinked. -/
  torn : Bool

structure Publisher (ω : Type) [DecidableEq ω] where
  list : Chain ω
  state : ω → ObserverState
  base : PublisherState
  /-- The notifies that run, the innermost first. -/
  notifies : List (Notify ω)
  /-- Attached or touched with the answer 0, and since then neither detached nor,
  if touched, triggered. -/
  promised : ω → Bool
  /-- How often it was triggered since it was last touched; `none` where it was
  attached since. -/
  spent : ω → Option Nat
  /-- Detached, and not attached or touched since. -/
  left : ω → Bool
  /-- The observers triggered while they were left. -/
  late : List ω
  /-- The observers whose link was followed after their node was unlinked. -/
  strayed : List ω
  finished : List (Notify ω)

inductive PubAct (ω : Type) where
  /-- `attach`, and `touch` where it is for once. -/
  | attach (once : Bool) (obs : ω)
  | detach (obs : ω)
  | notify (event : Nat)
  /-- The callback returns. -/
  | ret
  /-- The loop of `notify` looks at `itor`. -/
  | tick

namespace Notify

def lose (obs : ω) (notify : Notify ω) : Notify ω :=
  if obs ∈ notify.fired then notify
  else { notify with lost := obs :: notify.lost }

def unlink (gone : ω → Bool) (notify : Notify ω) : Notify ω :=
  match notify.itor with
  | none => notify
  | some obs => if gone obs then { notify with torn := true } else notify

end Notify

namespace Publisher

/-- The publisher of `publisher_create`, with observers that were initialised. -/
def create (ω : Type) [DecidableEq ω] : Publisher ω :=
  { list := Chain.empty ω, state := fun _ => .ilde, base := .idle,
    notifies := [], promised := fun _ => false, spent := fun _ => none,
    left := fun _ => false, late := [], strayed := [], finished := [] }

variable (compare : Nat → Nat → Int) (eventOf : ω → Nat)

/-- What becomes of an observer that `__attach` takes. -/
def granted (publisher : Publisher ω) (once : Bool) (obs : ω) (list : Chain ω) :
    Publisher ω :=
  { publisher with
    list
    state := Function.update publisher.state obs
      (if once then .attachedOnce else .attached)
    promised := Function.update publisher.promised obs true
    spent := Function.update publisher.spent obs (if once then some 0 else none)
    left := Function.update publisher.left obs false }

def attach (publisher : Publisher ω) (once : Bool) (obs : ω) :
    Publisher ω × Int :=
  if publisher.state obs = .detached then
    (publisher.granted once obs publisher.list, 0)
  else if alone : publisher.list.isAlone obs = true then
    (publisher.granted once obs (publisher.list.addTail obs alone), 0)
  else (publisher, -1)

def detach (publisher : Publisher ω) (obs : ω) : Publisher ω × Int :=
  let told :=
    { publisher with
      notifies := publisher.notifies.map (Notify.lose obs)
      promised := Function.update publisher.promised obs false
      left := Function.update publisher.left obs true }
  if publisher.base = .idle then
    ({ told with
      list := publisher.list.remove obs
      state := Function.update publisher.state obs .ilde
      notifies := told.notifies.map (Notify.unlink fun other => other == obs) },
     0)
  else
    ({ told with state := Function.update publisher.state obs .detached }, 0)

/-- The beginning of `notify`, up to its loop. -/
def notify (publisher : Publisher ω) (event : Nat) : Publisher ω :=
  { publisher with
    base := .working
    notifies :=
      { event, itor := publisher.list.links.next none, triggering := false,
        due := fun obs => compare event (eventOf obs) == 0 &&
          (publisher.state obs).isAttached,
        fired := [], lost := [], torn := false } :: publisher.notifies }

/-- `list_next_entry` at the end of a round of the loop. -/
def goOn (publisher : Publisher ω) (notify : Notify ω) (rest : List (Notify ω))
    (itor : ω) : Publisher ω :=
  { publisher with
    notifies :=
      { notify with
        itor := publisher.list.links.next (some itor)
        triggering := false
        torn := false } :: rest
    strayed :=
      if notify.torn then itor :: publisher.strayed else publisher.strayed }

def trigger (publisher : Publisher ω) (notify : Notify ω)
    (rest : List (Notify ω)) (obs : ω) : Publisher ω :=
  { publisher with
    notifies :=
      { notify with triggering := true, fired := obs :: notify.fired } :: rest
    promised :=
      if publisher.state obs = .attachedOnce then
        Function.update publisher.promised obs false
      else publisher.promised
    spent := Function.update publisher.spent obs
      ((publisher.spent obs).map (· + 1))
    late := if publisher.left obs then obs :: publisher.late
      else publisher.late }

/-- The second loop of `notify`, over the observers in its order. -/
def cleanup (list : Chain ω) (state : ω → ObserverState) :
    Chain ω × (ω → ObserverState) :=
  list.items.foldl
    (fun kept itor =>
      if kept.2 itor = .detached then
        (kept.1.remove itor, Function.update kept.2 itor .ilde)
      else kept)
    (list, state)

/-- The end of `notify`, from its second loop on. -/
def finish (publisher : Publisher ω) (notify : Notify ω)
    (rest : List (Notify ω)) : Publisher ω :=
  let kept := cleanup publisher.list publisher.state
  { publisher with
    list := kept.1
    state := kept.2
    base := .idle
    notifies := rest.map (Notify.unlink fun obs =>
      publisher.list.items.contains obs && publisher.state obs == .detached)
    finished := publisher.finished ++ [notify] }

/-- One look of the first loop at `itor`. -/
def tick (publisher : Publisher ω) : Publisher ω :=
  match publisher.notifies with
  | [] => publisher
  | notify :: rest =>
      if notify.triggering then publisher
      else
        match notify.itor with
        | none => publisher.finish notify rest
        | some itor =>
            if compare notify.event (eventOf itor) = 0 ∧
                (publisher.state itor).isAttached = true then
              publisher.trigger notify rest itor
            else publisher.goOn notify rest itor

/-- What the first loop does behind the callback. -/
def ret (publisher : Publisher ω) : Publisher ω :=
  match publisher.notifies with
  | [] => publisher
  | notify :: rest =>
      if notify.triggering then
        match notify.itor with
        | none => publisher
        | some itor =>
            if publisher.state itor = .attachedOnce then
              { publisher with
                state := Function.update publisher.state itor .detached }.goOn
                  (notify.lose itor) (rest.map (Notify.lose itor)) itor
            else publisher.goOn notify rest itor
      else publisher

/-- Calls are made from outside, or by the callback that runs. -/
def free (publisher : Publisher ω) : Bool :=
  match publisher.notifies with
  | [] => true
  | notify :: _ => notify.triggering

def turn (publisher : Publisher ω) : PubAct ω → Publisher ω
  | .attach once obs =>
      if publisher.free then (publisher.attach once obs).1 else publisher
  | .detach obs =>
      if publisher.free then (publisher.detach obs).1 else publisher
  | .notify event =>
      if publisher.free then publisher.notify compare eventOf event else publisher
  | .ret => publisher.ret
  | .tick => publisher.tick compare eventOf

/-! ### What a turn can be -/

inductive Turned (publisher : Publisher ω) : PubAct ω → Publisher ω → Prop where
  | same (act : PubAct ω) : Turned publisher act publisher
  | revive (once : Bool) (obs : ω) (free : publisher.free = true)
      (state : publisher.state obs = .detached) :
      Turned publisher (.attach once obs)
        (publisher.granted once obs publisher.list)
  | link (once : Bool) (obs : ω) (free : publisher.free = true)
      (state : publisher.state obs ≠ .detached)
      (alone : publisher.list.isAlone obs = true) :
      Turned publisher (.attach once obs)
        (publisher.granted once obs (publisher.list.addTail obs alone))
  | detach (obs : ω) (free : publisher.free = true) :
      Turned publisher (.detach obs) (publisher.detach obs).1
  | notify (event : Nat) (free : publisher.free = true) :
      Turned publisher (.notify event) (publisher.notify compare eventOf event)
  | ret (notify : Notify ω) (rest : List (Notify ω)) (itor : ω)
      (top : publisher.notifies = notify :: rest)
      (triggering : notify.triggering = true) (at_itor : notify.itor = some itor)
      (state : publisher.state itor ≠ .attachedOnce) :
      Turned publisher .ret (publisher.goOn notify rest itor)
  | once (notify : Notify ω) (rest : List (Notify ω)) (itor : ω)
      (top : publisher.notifies = notify :: rest)
      (triggering : notify.triggering = true) (at_itor : notify.itor = some itor)
      (state : publisher.state itor = .attachedOnce) :
      Turned publisher .ret
        ({ publisher with
          state := Function.update publisher.state itor .detached }.goOn
            (notify.lose itor) (rest.map (Notify.lose itor)) itor)
  | finish (notify : Notify ω) (rest : List (Notify ω))
      (top : publisher.notifies = notify :: rest)
      (looking : notify.triggering = false) (at_head : notify.itor = none) :
      Turned publisher .tick (publisher.finish notify rest)
  | trigger (notify : Notify ω) (rest : List (Notify ω)) (itor : ω)
      (top : publisher.notifies = notify :: rest)
      (looking : notify.triggering = false) (at_itor : notify.itor = some itor)
      (heeds : compare notify.event (eventOf itor) = 0)
      (state : (publisher.state itor).isAttached = true) :
      Turned publisher .tick (publisher.trigger notify rest itor)
  | pass (notify : Notify ω) (rest : List (Notify ω)) (itor : ω)
      (top : publisher.notifies = notify :: rest)
      (looking : notify.triggering = false) (at_itor : notify.itor = some itor)
      (skips : ¬ (compare notify.event (eventOf itor) = 0 ∧
        (publisher.state itor).isAttached = true)) :
      Turned publisher .tick (publisher.goOn notify rest itor)

theorem turned (publisher : Publisher ω) (act : PubAct ω) :
    Turned compare eventOf publisher act
      (publisher.turn compare eventOf act) := by
  cases act with
  | attach once obs =>
      by_cases free : publisher.free = true
      · simp only [turn, if_pos free, attach]
        by_cases detached : publisher.state obs = .detached
        · rw [if_pos detached]
          exact .revive once obs free detached
        · rw [if_neg detached]
          by_cases alone : publisher.list.isAlone obs = true
          · rw [dif_pos alone]
            exact .link once obs free detached alone
          · rw [dif_neg alone]
            exact .same _
      · simp only [turn, if_neg free]
        exact .same _
  | detach obs =>
      by_cases free : publisher.free = true
      · simp only [turn, if_pos free]
        exact .detach obs free
      · simp only [turn, if_neg free]
        exact .same _
  | notify event =>
      by_cases free : publisher.free = true
      · simp only [turn, if_pos free]
        exact .notify event free
      · simp only [turn, if_neg free]
        exact .same _
  | ret =>
      simp only [turn, ret]
      cases top : publisher.notifies with
      | nil => exact .same _
      | cons notify rest =>
          cases triggering : notify.triggering with
          | false =>
              simp only [triggering]
              exact .same _
          | true =>
              cases at_itor : notify.itor with
              | none =>
                  simp only [triggering, at_itor]
                  exact .same _
              | some itor =>
                  by_cases state : publisher.state itor = .attachedOnce
                  · simp only [triggering, if_true, at_itor, if_pos state]
                    exact .once notify rest itor top triggering at_itor state
                  · simp only [triggering, if_true, at_itor, if_neg state]
                    exact .ret notify rest itor top triggering at_itor state
  | tick =>
      simp only [turn, tick]
      cases top : publisher.notifies with
      | nil => exact .same _
      | cons notify rest =>
          cases looking : notify.triggering with
          | true =>
              simp only [looking]
              exact .same _
          | false =>
              cases at_itor : notify.itor with
              | none =>
                  simp only [looking, at_itor]
                  exact .finish notify rest top looking at_itor
              | some itor =>
                  by_cases heeds : compare notify.event (eventOf itor) = 0 ∧
                      (publisher.state itor).isAttached = true
                  · simp only [looking, at_itor, if_pos heeds]
                    exact .trigger notify rest itor top looking at_itor heeds.1
                      heeds.2
                  · simp only [looking, at_itor, if_neg heeds]
                    exact .pass notify rest itor top looking at_itor heeds

/-! ### The second loop -/

/-- What the second loop leaves, with the observers it has still to look at. -/
theorem cleanup_from (rest : List ω) (list : Chain ω)
    (state : ω → ObserverState) :
    let kept := rest.foldl
      (fun kept itor =>
        if kept.2 itor = .detached then
          (kept.1.remove itor, Function.update kept.2 itor .ilde)
        else kept)
      (list, state)
    kept.1.items = list.items.filter
        (fun obs => !(rest.contains obs && state obs == .detached)) ∧
      ∀ obs, kept.2 obs =
        if obs ∈ rest ∧ state obs = .detached then .ilde else state obs := by
  induction rest generalizing list state with
  | nil => simp
  | cons itor rest ih =>
      rw [List.foldl_cons]
      by_cases detached : state itor = .detached
      · simp only [if_pos detached]
        obtain ⟨items, states⟩ := ih (list.remove itor)
          (Function.update state itor .ilde)
        refine ⟨?_, ?_⟩
        · rw [items, Chain.remove_items, list.nodup.erase_eq_filter,
            List.filter_filter]
          apply List.filter_congr
          intro obs _
          by_cases same : obs = itor
          · subst same
            simp [detached]
          · simp [same]
        · intro obs
          rw [states]
          by_cases same : obs = itor
          · subst same
            simp [detached]
          · simp [same]
      · simp only [if_neg detached]
        obtain ⟨items, states⟩ := ih list state
        refine ⟨?_, ?_⟩
        · rw [items]
          apply List.filter_congr
          intro obs _
          by_cases same : obs = itor
          · subst same
            simp [detached]
          · simp [same]
        · intro obs
          rw [states]
          by_cases same : obs = itor
          · subst same
            simp [detached]
          · simp [same]

theorem cleanup_items (list : Chain ω) (state : ω → ObserverState) :
    (cleanup list state).1.items =
      list.items.filter (fun obs => state obs != .detached) := by
  have items := (cleanup_from list.items list state).1
  unfold cleanup
  rw [items]
  apply List.filter_congr
  intro obs member
  simp [member, bne]

theorem cleanup_state (list : Chain ω) (state : ω → ObserverState) (obs : ω) :
    (cleanup list state).2 obs =
      if obs ∈ list.items ∧ state obs = .detached then .ilde else state obs :=
  (cleanup_from list.items list state).2 obs

end Publisher

end XR872.SysCtrl
