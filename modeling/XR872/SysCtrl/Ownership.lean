/-
Who destroys a payload, and who still uses it then.

Every message that was accepted is in one place, and its payload is destroyed
when its round ends. What the code does not look at is the observer threads.
-/

import XR872.SysCtrl.Payload

namespace XR872.SysCtrl

open Runs

variable {ω : Type} [DecidableEq ω]

/-! ### Where the messages are -/

/-- Every message is in one place, and what is destroyed are the payloads of the
messages whose rounds have ended. -/
structure Filed (dispatcher : Dispatcher ω) : Prop where
  perm : (dispatcher.queue ++ (dispatcher.msg.toList ++ dispatcher.ended)).Perm
    dispatcher.accepted
  serials : (dispatcher.accepted.map EventMsg.serial ++
    dispatcher.refused).Nodup
  below : ∀ serial ∈ dispatcher.accepted.map EventMsg.serial ++
    dispatcher.refused, serial < dispatcher.sends
  destroyed : dispatcher.destroyed =
    (dispatcher.ended.filter EventMsg.destruct).map EventMsg.serial
  current : ∀ trigger ∈ dispatcher.callbacks, ∀ serial ∈ trigger.payload,
    ∃ msg, dispatcher.msg = some msg ∧ msg.serial = serial
  quiet : dispatcher.msg = none → dispatcher.callbacks = []

section Filed

variable {dispatcher : Dispatcher ω}

omit [DecidableEq ω] in
theorem filed_create : Filed (Dispatcher.create ω) := by
  exact {
    perm := List.Perm.refl []
    serials := List.nodup_nil
    below := fun _ member => absurd member List.not_mem_nil
    destroyed := rfl
    current := fun _ member => absurd member List.not_mem_nil
    quiet := fun _ => rfl }

omit [DecidableEq ω]

theorem Filed.mem_accepted (filed : Filed dispatcher) (msg : EventMsg) :
    msg ∈ dispatcher.accepted ↔ msg ∈ dispatcher.queue ∨
      dispatcher.msg = some msg ∨ msg ∈ dispatcher.ended := by
  rw [← filed.perm.mem_iff, List.mem_append, List.mem_append,
    Option.mem_toList]

theorem Filed.accepted_serials (filed : Filed dispatcher) :
    (dispatcher.accepted.map EventMsg.serial).Nodup :=
  (List.nodup_append.mp filed.serials).1

theorem Filed.serial_inj (filed : Filed dispatcher) (left right : EventMsg)
    (first : left ∈ dispatcher.accepted) (second : right ∈ dispatcher.accepted)
    (same : left.serial = right.serial) : left = right :=
  List.inj_on_of_nodup_map filed.accepted_serials first second same

theorem Filed.places (filed : Filed dispatcher) :
    (dispatcher.queue ++ (dispatcher.msg.toList ++ dispatcher.ended)).Nodup :=
  filed.perm.nodup_iff.mpr filed.accepted_serials.of_map

theorem Filed.mem_destroyed (filed : Filed dispatcher) (msg : EventMsg)
    (member : msg ∈ dispatcher.accepted) :
    msg.serial ∈ dispatcher.destroyed ↔
      msg ∈ dispatcher.ended ∧ msg.destruct = true := by
  rw [filed.destroyed, List.mem_map]
  constructor
  · rintro ⟨other, inside, same⟩
    obtain ⟨ended, destruct⟩ := List.mem_filter.mp inside
    have accepted := (filed.mem_accepted other).mpr (Or.inr (Or.inr ended))
    rw [← filed.serial_inj other msg accepted member same]
    exact ⟨ended, destruct⟩
  · rintro ⟨ended, destruct⟩
    exact ⟨msg, List.mem_filter.mpr ⟨ended, destruct⟩, rfl⟩

theorem Filed.destroyed_nodup (filed : Filed dispatcher) :
    dispatcher.destroyed.Nodup := by
  have serials := filed.accepted_serials
  rw [← (filed.perm.map EventMsg.serial).nodup_iff, List.map_append,
    List.map_append] at serials
  have ended := (List.nodup_append.mp (List.nodup_append.mp serials).2.1).2.1
  rw [filed.destroyed]
  exact ended.sublist (List.filter_sublist.map EventMsg.serial)

theorem Filed.mem_of_destroyed (filed : Filed dispatcher) (serial : Nat)
    (member : serial ∈ dispatcher.destroyed) :
    serial ∈ dispatcher.accepted.map EventMsg.serial := by
  rw [filed.destroyed] at member
  obtain ⟨msg, inside, same⟩ := List.mem_map.mp member
  rw [← same]
  apply List.mem_map_of_mem
  exact (filed.mem_accepted msg).mpr
    (Or.inr (Or.inr (List.mem_filter.mp inside).1))

theorem Filed.current_kept (filed : Filed dispatcher) (msg : EventMsg)
    (current : dispatcher.msg = some msg) :
    msg.serial ∉ dispatcher.destroyed := by
  intro member
  have accepted := (filed.mem_accepted msg).mpr (Or.inr (Or.inl current))
  have ended := ((filed.mem_destroyed msg accepted).mp member).1
  have places := (List.nodup_append.mp filed.places).2.1
  rw [current] at places
  exact (List.nodup_cons.mp places).1 ended

theorem Filed.once (filed : Filed dispatcher) (msg : EventMsg)
    (member : msg ∈ dispatcher.accepted) :
    dispatcher.destroyed.count msg.serial =
      if msg ∈ dispatcher.ended ∧ msg.destruct = true then 1 else 0 := by
  by_cases gone : msg ∈ dispatcher.ended ∧ msg.destruct = true
  · rw [if_pos gone]
    exact List.count_eq_one_of_mem filed.destroyed_nodup
      ((filed.mem_destroyed msg member).mpr gone)
  · rw [if_neg gone]
    apply List.count_eq_zero_of_not_mem
    intro inside
    exact gone ((filed.mem_destroyed msg member).mp inside)

theorem Filed.refused (filed : Filed dispatcher) (serial : Nat)
    (member : serial ∈ dispatcher.refused) :
    serial ∉ dispatcher.destroyed := by
  intro inside
  exact (List.nodup_append.mp filed.serials).2.2 serial
    (filed.mem_of_destroyed serial inside) serial member rfl

theorem Filed.same (filed : Filed dispatcher) (threads : ω → ThreadObserver) :
    Filed { dispatcher with threads } :=
  { perm := filed.perm, serials := filed.serials, below := filed.below,
    destroyed := filed.destroyed, current := filed.current,
    quiet := filed.quiet }

theorem Filed.send (filed : Filed dispatcher) (event data : Nat)
    (destruct accepts : Bool) :
    Filed (dispatcher.send event data destruct accepts) := by
  have fresh : dispatcher.sends ∉ dispatcher.accepted.map EventMsg.serial ++
      dispatcher.refused := by
    intro member
    exact Nat.lt_irrefl _ (filed.below _ member)
  unfold Dispatcher.send
  cases accepts with
  | true =>
      exact {
        perm := by
          have moved := filed.perm.append_right [{
            serial := dispatcher.sends, event, data, destruct : EventMsg }]
          refine List.Perm.trans ?_ moved
          simp only [if_true]
          rw [List.append_assoc dispatcher.queue, List.append_assoc
            dispatcher.queue]
          exact List.Perm.append_left _ List.perm_append_comm
        serials := by
          simp only [if_true, List.map_append, List.map_cons, List.map_nil,
            List.append_assoc, List.singleton_append]
          rw [List.nodup_middle]
          exact List.nodup_cons.mpr ⟨fresh, filed.serials⟩
        below := by
          intro serial member
          simp only [if_true, List.map_append, List.map_cons, List.map_nil,
            List.append_assoc, List.singleton_append, List.mem_append,
            List.mem_cons] at member
          change serial < dispatcher.sends + 1
          rcases member with old | same | old
          · exact Nat.lt_succ_of_lt
              (filed.below serial (List.mem_append_left _ old))
          · rw [same]
            exact Nat.lt_succ_self _
          · exact Nat.lt_succ_of_lt
              (filed.below serial (List.mem_append_right _ old))
        destroyed := filed.destroyed
        current := filed.current
        quiet := filed.quiet }
  | false =>
      exact {
        perm := filed.perm
        serials := by
          change (_ ++ (dispatcher.refused ++ [dispatcher.sends])).Nodup
          rw [← List.append_assoc, List.nodup_append]
          refine ⟨filed.serials, List.nodup_singleton _, ?_⟩
          intro serial member other single
          rw [List.mem_singleton.mp single]
          intro same
          rw [same] at member
          exact fresh member
        below := by
          intro serial member
          change serial ∈ _ ++ (dispatcher.refused ++ [dispatcher.sends])
            at member
          change serial < dispatcher.sends + 1
          rw [← List.append_assoc, List.mem_append, List.mem_singleton] at member
          rcases member with old | same
          · exact Nat.lt_succ_of_lt (filed.below serial old)
          · rw [same]
            exact Nat.lt_succ_self _
        destroyed := filed.destroyed
        current := filed.current
        quiet := filed.quiet }

theorem Filed.recv (filed : Filed dispatcher) (place : Nat) :
    Filed (dispatcher.recv place) := by
  unfold Dispatcher.recv
  cases current : dispatcher.msg with
  | some msg => exact filed
  | none =>
      cases found : dispatcher.queue[place]? with
      | none => exact filed
      | some msg =>
          have none_ := filed.quiet current
          obtain ⟨inside, at_place⟩ := List.getElem?_eq_some_iff.mp found
          exact {
            perm := by
              refine List.Perm.trans ?_ filed.perm
              rw [current]
              change (_ ++ ([msg] ++ dispatcher.ended)).Perm
                (_ ++ ([] ++ dispatcher.ended))
              rw [← List.append_assoc, List.nil_append]
              apply List.Perm.append_right
              have split := List.getElem_cons_eraseIdx_perm inside
              rw [at_place] at split
              exact (List.perm_append_singleton _ _).trans split
            serials := filed.serials
            below := filed.below
            destroyed := filed.destroyed
            current := by
              intro trigger member
              change trigger ∈ dispatcher.callbacks at member
              rw [none_] at member
              cases member
            quiet := by
              intro nothing
              cases nothing }

/-- A callback that begins has the payload of the message in the looper, if it
has any. -/
theorem cause_payload (own : Option (Nat × Nat)) (cause : Trigger)
    (given : dispatcher.cause own = some cause) :
    ∀ serial ∈ cause.payload,
      ∃ msg, dispatcher.msg = some msg ∧ msg.serial = serial := by
  intro serial payload
  unfold Dispatcher.cause at given
  split at given
  · obtain ⟨msg, current, same⟩ := Option.map_eq_some_iff.mp given
    rw [← same] at payload
    exact ⟨msg, current, Option.some.inj payload⟩
  · rw [← Option.some.inj given] at payload
    obtain ⟨msg, current, same⟩ := Option.map_eq_some_iff.mp payload
    exact ⟨msg, (Option.filter_eq_some_iff.mp current).1, same⟩
  · cases given

theorem Filed.cause_busy (filed : Filed dispatcher) (own : Option (Nat × Nat))
    (cause : Trigger) (given : dispatcher.cause own = some cause) :
    dispatcher.msg ≠ none := by
  intro nothing
  have none_ := filed.quiet nothing
  unfold Dispatcher.cause at given
  rw [none_, nothing] at given
  split at given
  · cases given
  · rename_i running
    cases running
  · cases given

theorem Filed.callback (filed : Filed dispatcher) (own : Option (Nat × Nat))
    (cause : Trigger) (given : dispatcher.cause own = some cause) :
    Filed { dispatcher with callbacks := cause :: dispatcher.callbacks } := by
  have passed := cause_payload own cause given
  exact {
    perm := filed.perm, serials := filed.serials, below := filed.below,
    destroyed := filed.destroyed
    current := by
      intro trigger member
      rcases List.mem_cons.mp member with same | old
      · rw [same]
        exact passed
      · exact filed.current trigger old
    quiet := fun nothing =>
      absurd nothing (filed.cause_busy own cause given) }

theorem Filed.ret (filed : Filed dispatcher) :
    Filed { dispatcher with callbacks := dispatcher.callbacks.tail } :=
  { perm := filed.perm, serials := filed.serials, below := filed.below,
    destroyed := filed.destroyed
    current := fun trigger member =>
      filed.current trigger (List.mem_of_mem_tail member)
    quiet := by
      intro nothing
      change dispatcher.callbacks.tail = []
      rw [filed.quiet nothing]
      rfl }

theorem Filed.finish (filed : Filed dispatcher) :
    Filed dispatcher.finish := by
  unfold Dispatcher.finish
  split
  · rename_i msg current none_
    exact {
      perm := by
        refine List.Perm.trans ?_ filed.perm
        rw [current]
        change (_ ++ ([] ++ (dispatcher.ended ++ [msg]))).Perm
          (_ ++ ([msg] ++ dispatcher.ended))
        rw [List.nil_append]
        exact List.Perm.append_left _ List.perm_append_comm
      serials := filed.serials
      below := filed.below
      destroyed := by
        change (if msg.destruct then _ else _) = _
        rw [List.filter_append, List.map_append, ← filed.destroyed]
        cases destruct : msg.destruct with
        | true =>
            rw [List.filter_cons_of_pos destruct]
            rfl
        | false =>
            rw [List.filter_cons_of_neg (by rw [destruct]; exact
              Bool.false_ne_true)]
            exact (List.append_nil _).symm
      current := by
        intro trigger member
        change trigger ∈ dispatcher.callbacks at member
        rw [none_] at member
        cases member
      quiet := fun _ => none_ }
  · exact filed

end Filed

variable (type : ω → ObserverType) {dispatcher : Dispatcher ω}

theorem filed_turn (act : DispatchAct ω) (filed : Filed dispatcher) :
    Filed (dispatcher.turn type act) := by
  have step : ∀ obs phase change,
      Filed (dispatcher.threadStep obs phase change) := by
    intro obs phase change
    unfold Dispatcher.threadStep
    split
    · exact filed.same _
    · exact filed
  cases act with
  | send event data destruct accepts =>
      exact filed.send event data destruct accepts
  | recv place => exact filed.recv place
  | trigger obs own created =>
      simp only [Dispatcher.turn]
      cases given : dispatcher.cause own with
      | none => exact filed
      | some cause =>
          simp only [Dispatcher.trigger]
          cases type obs with
          | event => exact filed
          | callback => exact filed.callback own cause given
          | thread => exact filed.same _
  | ret => exact filed.ret
  | finish => exact filed.finish
  | start obs => exact step obs _ _
  | leave obs => exact step obs _ _
  | delete obs => exact step obs _ _

/-! ### The slots -/

structure Slotted (destroyed : List Nat) (observer : ThreadObserver) :
    Prop where
  unused : observer.busy = true → ∀ serial ∈ observer.startedBy.payload,
    serial ∉ destroyed
  waiting : observer.thd = .created →
    observer.event = observer.startedBy.event ∧
      observer.arg = observer.startedBy.data
  called : observer.thd = .running →
    observer.calledWith = (observer.startedBy.event, observer.startedBy.data)

def Slots (dispatcher : Dispatcher ω) : Prop :=
  ∀ obs, Slotted dispatcher.destroyed (dispatcher.threads obs)

omit [DecidableEq ω] in
theorem owned_iff (filed : Filed dispatcher) :
    Owned dispatcher ↔ Slots dispatcher := by
  constructor
  · intro owned obs
    exact {
      unused := owned.threads obs
      waiting := owned.waiting obs
      called := owned.called obs }
  · intro slots
    exact {
      kept := fun msg member => (filed.mem_accepted msg).mp member
      once := filed.once
      refused := filed.refused
      callbacks := by
        intro trigger member serial payload
        obtain ⟨msg, current, same⟩ :=
          filed.current trigger member serial payload
        rw [← same]
        exact filed.current_kept msg current
      threads := fun obs => (slots obs).unused
      waiting := fun obs => (slots obs).waiting
      called := fun obs => (slots obs).called }

theorem slots_update (slots : Slots dispatcher) (obs : ω)
    (observer : ThreadObserver) :
    Slots { dispatcher with
        threads := Function.update dispatcher.threads obs observer } ↔
      Slotted dispatcher.destroyed observer := by
  constructor
  · intro all
    have here := all obs
    change Slotted _ (Function.update dispatcher.threads obs observer obs)
      at here
    rwa [Function.update_self] at here
  · intro here other
    change Slotted _ (Function.update dispatcher.threads obs observer other)
    by_cases same : other = obs
    · rw [same, Function.update_self]
      exact here
    · rw [Function.update_of_ne same]
      exact slots other

theorem slots_threadStep (slots : Slots dispatcher) (obs : ω)
    (phase : ThreadPhase) (change : ThreadObserver → ThreadObserver)
    (keeps : ∀ observer, observer.thd = phase →
      Slotted dispatcher.destroyed observer →
      Slotted dispatcher.destroyed (change observer)) :
    Slots (dispatcher.threadStep obs phase change) := by
  unfold Dispatcher.threadStep
  by_cases now : (dispatcher.threads obs).thd = phase
  · rw [if_pos now]
    exact (slots_update slots obs _).mpr (keeps _ now (slots obs))
  · rw [if_neg now]
    exact slots

/-- A trigger that finds a valid thread has still written the slot. -/
theorem triggerThread_valid (observer : ThreadObserver) (cause : Trigger)
    (created : Bool) (valid : observer.thd ≠ .invalid) :
    triggerThread observer cause created =
      { observer with event := cause.event, arg := cause.data } := by
  simp only [triggerThread]
  exact if_pos valid

/-- A trigger keeps the promises of an observer thread exactly if it leaves the
slot of a waiting thread as it is. -/
theorem slotted_triggerThread (destroyed : List Nat) (observer : ThreadObserver)
    (slotted : Slotted destroyed observer) (cause : Trigger) (created : Bool)
    (kept : ∀ serial ∈ cause.payload, serial ∉ destroyed) :
    Slotted destroyed (triggerThread observer cause created) ↔
      (observer.thd = .created →
        observer.event = cause.event ∧ observer.arg = cause.data) := by
  obtain ⟨unused, waiting, called⟩ := slotted
  by_cases invalid : observer.thd = .invalid
  · refine iff_of_true ?_ (fun same => nomatch invalid.symm.trans same)
    simp only [triggerThread, invalid, ne_eq, not_true_eq_false, if_false]
    cases created with
    | true =>
        exact {
          unused := fun _ => kept
          waiting := fun _ => ⟨rfl, rfl⟩
          called := fun running => nomatch running }
    | false =>
        simp only [if_neg Bool.false_ne_true]
        exact {
          unused := by
            intro busy
            simp only [ThreadObserver.busy] at busy
            cases busy
          waiting := fun same => nomatch same
          called := fun running => nomatch running }
  · rw [triggerThread_valid observer cause created invalid]
    by_cases phase : observer.thd = .created
    · obtain ⟨event, data⟩ := waiting phase
      constructor
      · intro after _
        obtain ⟨sameEvent, sameData⟩ := after.waiting phase
        exact ⟨event.trans sameEvent.symm, data.trans sameData.symm⟩
      · intro leaves
        obtain ⟨sameEvent, sameData⟩ := leaves phase
        exact {
          unused := unused
          waiting := fun _ =>
            ⟨sameEvent.symm.trans event, sameData.symm.trans data⟩
          called := called }
    -- A thread that has read its slot does not read it again.
    · refine iff_of_true ?_ (fun same => absurd same phase)
      exact {
        unused := unused
        waiting := fun same => absurd same phase
        called := called }

/-! ### One turn -/

/-- The two things that the code does not look at. -/
def LeavesThreads (type : ω → ObserverType) (dispatcher : Dispatcher ω)
    (act : DispatchAct ω) : Prop :=
  EndsUnused dispatcher act ∧ LeavesSlot type dispatcher act

omit [DecidableEq ω] in
theorem slots_finish (slots : Slots dispatcher) :
    Slots dispatcher.finish ↔ EndsUnused dispatcher .finish := by
  unfold Dispatcher.finish
  simp only [EndsUnused]
  cases current : dispatcher.msg with
  | none =>
      refine iff_of_true slots ?_
      intro msg member
      cases member
  | some msg =>
      cases running : dispatcher.callbacks with
      | cons trigger rest =>
          refine iff_of_true slots ?_
          intro _ _ none_
          cases none_
      | nil =>
          cases destruct : msg.destruct with
          | false =>
              simp only [destruct, if_neg Bool.false_ne_true]
              refine iff_of_true slots ?_
              intro other member _ destroys
              cases member
              rw [destruct] at destroys
              cases destroys
          | true =>
              simp only [destruct, if_true]
              constructor
              · intro after other member _ _ obs busy same
                cases member
                apply (after obs).unused busy msg.serial same
                exact List.mem_append_right _ List.mem_cons_self
              · intro ends obs
                obtain ⟨unused, waiting, called⟩ := slots obs
                refine { unused := ?_, waiting, called }
                intro busy serial payload member
                rcases List.mem_append.mp member with old | single
                · exact unused busy serial payload old
                · rw [List.mem_singleton.mp single] at payload
                  exact ends msg rfl trivial destruct obs busy payload

/-- A turn keeps the promises exactly if it leaves the threads alone. -/
theorem slots_turn (act : DispatchAct ω) (filed : Filed dispatcher)
    (slots : Slots dispatcher) :
    Slots (dispatcher.turn type act) ↔ LeavesThreads type dispatcher act := by
  cases act with
  | send event data destruct accepts =>
      refine iff_of_true ?_ ⟨trivial, trivial⟩
      cases accepts <;> exact slots
  | recv place =>
      refine iff_of_true ?_ ⟨trivial, trivial⟩
      simp only [Dispatcher.turn, Dispatcher.recv]
      split <;> exact slots
  | trigger obs own created =>
      refine Iff.trans ?_ (and_iff_right trivial).symm
      simp only [LeavesSlot]
      cases given : dispatcher.cause own with
      | none =>
          simp only [Dispatcher.turn, given]
          refine iff_of_true slots ?_
          intro cause member
          cases member
      | some cause =>
          simp only [Dispatcher.turn, given, Dispatcher.trigger]
          cases kind : type obs with
          | event =>
              refine iff_of_true slots ?_
              intro _ _ same
              cases same
          | callback =>
              refine iff_of_true slots ?_
              intro _ _ same
              cases same
          | thread =>
              have kept : ∀ serial ∈ cause.payload,
                  serial ∉ dispatcher.destroyed := by
                intro serial payload
                obtain ⟨msg, current, same⟩ :=
                  cause_payload own cause given serial payload
                rw [← same]
                exact filed.current_kept msg current
              rw [slots_update slots, slotted_triggerThread _ _ (slots obs) cause
                created kept]
              constructor
              · intro leaves other member _
                cases member
                exact leaves
              · intro leaves
                exact leaves cause rfl rfl
  | ret => exact iff_of_true slots ⟨trivial, trivial⟩
  | finish =>
      refine Iff.trans ?_ (and_iff_left trivial).symm
      exact slots_finish slots
  | start obs =>
      refine iff_of_true ?_ ⟨trivial, trivial⟩
      apply slots_threadStep slots
      intro observer phase slotted
      obtain ⟨event, data⟩ := slotted.waiting phase
      exact {
        unused := fun _ => slotted.unused (by
          unfold ThreadObserver.busy
          rw [phase])
        waiting := fun same => nomatch same
        called := fun _ => by
          change (observer.event, observer.arg) = _
          rw [event, data]
          rfl }
  | leave obs =>
      refine iff_of_true ?_ ⟨trivial, trivial⟩
      apply slots_threadStep slots
      intro observer _ _
      exact {
        unused := fun busy => nomatch busy
        waiting := fun same => nomatch same
        called := fun same => nomatch same }
  | delete obs =>
      refine iff_of_true ?_ ⟨trivial, trivial⟩
      apply slots_threadStep slots
      intro observer _ _
      exact {
        unused := fun busy => nomatch busy
        waiting := fun same => nomatch same
        called := fun same => nomatch same }

/-- Payloads are owned throughout a run exactly if no round ends while a thread
is busy with the payload to destroy, and no trigger changes the slot of a thread
that has still to read it. -/
theorem owned_iff_along (acts : List (DispatchAct ω)) :
    Always (Dispatcher.turn type) Owned (Dispatcher.create ω) acts ↔
      Along (Dispatcher.turn type) (LeavesThreads type) (Dispatcher.create ω)
        acts := by
  have start : Slots (Dispatcher.create ω) := by
    intro obs
    exact {
      unused := fun busy => nomatch busy
      waiting := fun same => nomatch same
      called := fun same => nomatch same }
  apply always_iff_along Owned (LeavesThreads type) Filed
  · intro dispatcher act filed _ _
    exact filed_turn type act filed
  · intro dispatcher act filed owned
    rw [owned_iff (filed_turn type act filed)]
    exact slots_turn type act filed ((owned_iff filed).mp owned)
  · exact filed_create
  · exact (owned_iff filed_create).mpr start

/-- One thread observer. A round ends before its thread has started; and a
second event reaches it before the thread of the first has read the slot. -/
theorem threads_notLookedAt :
    ¬ Owned (run (Dispatcher.turn fun _ : Nat => .thread) (Dispatcher.create Nat)
      [.send 7 100 true true, .recv 0, .trigger 0 none true, .finish]) ∧
    ¬ Owned (run (Dispatcher.turn fun _ : Nat => .thread) (Dispatcher.create Nat)
      [.send 7 100 false true, .send 8 200 false true, .recv 0,
        .trigger 0 none true, .finish, .recv 0, .trigger 0 none true,
        .start 0]) := by
  constructor
  · intro owned
    exact owned.threads 0 (by decide) 0 (by decide) (by decide)
  · intro owned
    have called := owned.called 0 (by decide)
    revert called
    decide

end XR872.SysCtrl
