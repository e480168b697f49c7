/-
The event queue over the sorted list.

The comparator answers 0 or 1, which the list takes for "insert here" in both
cases, and the list has one slot. A message is delivered if it is received
before the next one is sent; sent before that, the next one overwrites it.
-/

import XR872.Library.Run
import XR872.SysCtrl.Calls

namespace XR872.SysCtrl

open Circles
open Runs

variable {size : Nat} {μ : Type}

/-- `complare_event_msg`: `before` is the comparison of the two events. -/
def complareEventMsg {α : Type} (before : α → α → Bool) (newArg oldArg : α) :
    Int :=
  if before newArg oldArg then 1 else 0

theorem complareEventMsg_nonneg {α : Type} (before : α → α → Bool)
    (newArg oldArg : α) : 0 ≤ complareEventMsg before newArg oldArg := by
  unfold complareEventMsg
  split
  · decide
  · decide

/-- A queue of `size` nodes. The arguments of the list are the addresses of the
copies that `prio_event_send` allocates. -/
structure PrioEventQueue (size : Nat) (μ : Type) where
  container : SortedList size Nat
  /-- The count of the semaphore of the container. -/
  permits : Nat
  /-- The copies that are allocated and not freed. -/
  heap : Nat → Option μ

def prioEventQueueCreate (size : Nat) (μ : Type) : PrioEventQueue size μ :=
  { container := sortedListInit size Nat, permits := 0, heap := fun _ => none }

/-- The event that `complare_event_msg` reads at an address. -/
def eventAt (event : μ → Nat) (heap : Nat → Option μ) (addr : Nat) : Nat :=
  match heap addr with
  | some msg => event msg
  | none => 0

/-- `addr` is the answer of `malloc`, which is never an address in use. With the
pool empty the push times out. `none` is a call that does not return. -/
def prioEventSend (event : μ → Nat) (queue : PrioEventQueue size μ) (msg : μ)
    (addr : Option Nat) : Option (Int × PrioEventQueue size μ) :=
  match addr with
  | none => some (-1, queue)
  | some newMsg =>
      if (queue.heap newMsg).isSome then some (-1, queue)
      else
        let heap := Function.update queue.heap newMsg (some msg)
        let before := fun left right =>
          decide (eventAt event heap left < eventAt event heap right)
        if sortedListRoom queue.container then
          (sortedListInsert (complareEventMsg before) queue.container
            newMsg).map fun container =>
              (0, { container, permits := Machine.release queue.permits, heap })
        else some (-2, queue)

/-- What `prio_event_recv` returns: a failure, or a copy of what the address
holds, which is `none` for memory that is not allocated. -/
inductive RecvAnswer (μ : Type) where
  | failed
  | msg (content : Option μ)

def prioEventRecv (queue : PrioEventQueue size μ) :
    RecvAnswer μ × PrioEventQueue size μ :=
  if queue.permits = 0 then (.failed, queue)
  else
    let waited := { queue with permits := queue.permits - 1 }
    match sortedListTake queue.container with
    | .empty => (.failed, waited)
    | .broken => (.failed, waited)
    | .node newMsg container =>
        (.msg (queue.heap newMsg),
          { waited with
            container
            heap := Function.update queue.heap newMsg none })

/-! ### Runs of sends and receives -/

/-- A message, and which send it was. -/
structure Sent (μ : Type) where
  serial : Nat
  msg : μ
deriving DecidableEq

inductive QueueOp (μ : Type) where
  | send (msg : μ) (addr : Option Nat)
  | recv

structure QueueRun (size : Nat) (μ : Type) where
  queue : PrioEventQueue size (Sent μ)
  /-- The number of sends that succeeded. -/
  count : Nat
  /-- What was sent and not received, in sending order. -/
  pending : List (Sent μ)
  /-- For every receive that succeeded, what was pending and what it
  returned. -/
  receipts : List (List (Sent μ) × Option (Sent μ))

def queueRunStart (size : Nat) (μ : Type) : QueueRun size μ :=
  { queue := prioEventQueueCreate size (Sent μ), count := 0, pending := [],
    receipts := [] }

def Sent.eventBy (event : μ → Nat) (sent : Sent μ) : Nat := event sent.msg

def queueRunTurn (event : μ → Nat) (use : QueueRun size μ) :
    QueueOp μ → QueueRun size μ
  | .send msg addr =>
      let sent : Sent μ := { serial := use.count, msg }
      match prioEventSend (Sent.eventBy event) use.queue sent addr with
      | none => use
      | some (ret, queue) =>
          if ret = 0 then
            { use with
              queue
              count := use.count + 1
              pending := use.pending ++ [sent] }
          else { use with queue }
  | .recv =>
      match prioEventRecv use.queue with
      | (.failed, queue) => { use with queue }
      | (.msg content, queue) =>
          { use with
            queue
            pending := use.pending.filter fun sent =>
              decide (content.map Sent.serial ≠ some sent.serial)
            receipts := use.receipts ++ [(use.pending, content)] }

/-- The two orders of events. -/
inductive QueueOrder where
  | smallestFirst
  | largestFirst

def QueueOrder.before : QueueOrder → Nat → Nat → Prop
  | .smallestFirst, left, right => left < right
  | .largestFirst, left, right => right < left

/-- The message to be received next: extremal, and among equal events the one
sent first. -/
def IsNext (event : μ → Nat) (order : QueueOrder) (pending : List (Sent μ))
    (sent : Sent μ) : Prop :=
  sent ∈ pending ∧ ∀ other ∈ pending, other ≠ sent →
    order.before (sent.eventBy event) (other.eventBy event) ∨
      sent.eventBy event = other.eventBy event ∧ sent.serial < other.serial

/-- Every receive has returned the next message, and as many receives as there
are messages pending will return them all. -/
structure Delivers (event : μ → Nat) (order : QueueOrder)
    (use : QueueRun size μ) : Prop where
  received : ∀ receipt ∈ use.receipts, ∃ sent, receipt.2 = some sent ∧
    IsNext event order receipt.1 sent
  drains : (run (queueRunTurn event) use
    (List.replicate use.pending.length .recv)).pending = []

/-- A send that goes through is made with nothing pending. -/
def SendsAlone (use : QueueRun size μ) (op : QueueOp μ) : Prop :=
  ∀ msg addr, op = .send msg (some addr) → use.queue.heap addr = none →
    sortedListRoom use.queue.container = true → use.pending = []

/-! ### What a call does -/

def Shaped (container : SortedList size Nat) : Prop :=
  container = sortedListInit size Nat ∨ ∃ index, Slot container index

section Calls

variable (event : μ → Nat) (queue : PrioEventQueue size μ)

theorem prioEventSend_cases (msg : μ) (addr : Option Nat)
    (shaped : Shaped queue.container) :
    (∃ ret, ret ≠ 0 ∧ prioEventSend event queue msg addr = some (ret, queue) ∧
        ∀ newMsg, addr = some newMsg → queue.heap newMsg = none →
          sortedListRoom queue.container = false) ∨
      ∃ newMsg container index, addr = some newMsg ∧
        queue.heap newMsg = none ∧ sortedListRoom queue.container = true ∧
        Slot container index ∧ container.args index = newMsg ∧
        prioEventSend event queue msg addr =
          some (0, { container, permits := Machine.release queue.permits,
                     heap := Function.update queue.heap newMsg (some msg) }) := by
  unfold prioEventSend
  cases addr with
  | none => exact Or.inl ⟨-1, by decide, rfl, fun newMsg same => by cases same⟩
  | some newMsg =>
      by_cases used : (queue.heap newMsg).isSome = true
      · refine Or.inl ⟨-1, by decide, ?_, ?_⟩
        · simp only [used, if_true]
        · intro other same free
          cases same
          rw [free] at used
          cases used
      · have free : queue.heap newMsg = none := Option.not_isSome_iff_eq_none.mp used
        simp only [if_neg used]
        by_cases room : sortedListRoom queue.container = true
        · have inserted : ∃ container index,
              sortedListInsert (complareEventMsg fun left right =>
                decide (eventAt event
                    (Function.update queue.heap newMsg (some msg)) left <
                  eventAt event
                    (Function.update queue.heap newMsg (some msg)) right))
                queue.container newMsg = some container ∧
              Slot container index ∧ container.args index = newMsg := by
            rcases shaped with new | ⟨index, slot⟩
            · have positive : 0 < size := by
                rw [new] at room
                exact sortedListRoom_init.mp room
              obtain ⟨index, fresh⟩ := @fresh_init size Nat _ positive
              rw [← new] at fresh
              obtain ⟨container, insert, slot, arg⟩ :=
                sortedListInsert_fresh _ _ newMsg index fresh
              exact ⟨container, index, insert, slot, arg⟩
            · obtain ⟨container, insert, slot, arg⟩ := sortedListInsert_slot _ _
                newMsg index slot (complareEventMsg_nonneg _ _ _)
              exact ⟨container, index, insert, slot, arg⟩
          obtain ⟨container, index, insert, slot, arg⟩ := inserted
          refine Or.inr ⟨newMsg, container, index, rfl, free, room, slot, arg, ?_⟩
          simp only [room, if_true, insert, Option.map_some]
        · refine Or.inl ⟨-2, by decide, ?_, ?_⟩
          · simp only [if_neg room]
          · intro other _ _
            exact Bool.not_eq_true _ ▸ room

theorem prioEventRecv_none (empty : queue.permits = 0) :
    prioEventRecv queue = (.failed, queue) :=
  if_pos empty

theorem prioEventRecv_slot (index : Fin size)
    (slot : Slot queue.container index) (permit : queue.permits ≠ 0) :
    ∃ container, Slot container index ∧
      prioEventRecv queue =
        (.msg (queue.heap (queue.container.args index)),
          { container, permits := queue.permits - 1,
            heap := Function.update queue.heap (queue.container.args index)
              none }) := by
  obtain ⟨container, take, kept, _⟩ :=
    sortedListTake_slot queue.container index slot
  refine ⟨container, kept, ?_⟩
  unfold prioEventRecv
  simp only [if_neg permit, take]

end Calls

/-! ### One message at a time -/

structure Drained (use : QueueRun size μ) : Prop where
  shaped : Shaped use.queue.container
  permits : use.queue.permits = 0
  pending : use.pending = []

structure Loaded (use : QueueRun size μ) (sent : Sent μ) : Prop where
  slot : ∃ index, Slot use.queue.container index ∧
    use.queue.heap (use.queue.container.args index) = some sent
  permits : use.queue.permits = 1
  pending : use.pending = [sent]
  serial : sent.serial < use.count

def Received (event : μ → Nat) (order : QueueOrder) (use : QueueRun size μ) :
    Prop :=
  ∀ receipt ∈ use.receipts, ∃ sent, receipt.2 = some sent ∧
    IsNext event order receipt.1 sent

section Turn

variable (event : μ → Nat) (order : QueueOrder) (use : QueueRun size μ)

theorem isNext_single (sent : Sent μ) : IsNext event order [sent] sent := by
  refine ⟨List.mem_cons_self, ?_⟩
  intro other member apart
  exact absurd (List.mem_singleton.mp member) apart

theorem recv_loaded (sent : Sent μ) (loaded : Loaded use sent) :
    Drained (queueRunTurn event use .recv) ∧
      (queueRunTurn event use .recv).receipts =
        use.receipts ++ [([sent], some sent)] := by
  obtain ⟨index, slot, content⟩ := loaded.slot
  have permit : use.queue.permits ≠ 0 := by
    rw [loaded.permits]
    decide
  obtain ⟨container, kept, recv⟩ := prioEventRecv_slot use.queue index slot permit
  unfold queueRunTurn
  simp only [recv, content]
  constructor
  · exact {
      shaped := Or.inr ⟨index, kept⟩
      permits := by
        change use.queue.permits - 1 = 0
        rw [loaded.permits]
      pending := by simp [loaded.pending] }
  · rw [loaded.pending]

theorem recv_drained (drained : Drained use) :
    queueRunTurn event use .recv = use := by
  unfold queueRunTurn
  rw [prioEventRecv_none use.queue drained.permits]

theorem Drained.delivers (drained : Drained use)
    (received : Received event order use) : Delivers event order use := by
  exact {
    received := received
    drains := by
      rw [drained.pending]
      exact drained.pending }

theorem Loaded.delivers (sent : Sent μ) (loaded : Loaded use sent)
    (received : Received event order use) : Delivers event order use := by
  exact {
    received := received
    drains := by
      rw [loaded.pending]
      exact (recv_loaded event use sent loaded).1.pending }

def Single (use : QueueRun size μ) : Prop :=
  (Drained use ∨ ∃ sent, Loaded use sent) ∧ Received event order use

theorem Single.delivers (single : Single event order use) :
    Delivers event order use := by
  obtain ⟨state, received⟩ := single
  rcases state with drained | ⟨sent, loaded⟩
  · exact drained.delivers event order use received
  · exact loaded.delivers event order use sent received

theorem Single.shaped (single : Single event order use) :
    Shaped use.queue.container := by
  rcases single.1 with drained | ⟨sent, loaded⟩
  · exact drained.shaped
  · obtain ⟨index, slot, _⟩ := loaded.slot
    exact Or.inr ⟨index, slot⟩

theorem send_drained (msg : μ) (addr : Option Nat) (drained : Drained use)
    (received : Received event order use) :
    Single event order (queueRunTurn event use (.send msg addr)) := by
  unfold queueRunTurn
  rcases prioEventSend_cases (Sent.eventBy event) use.queue
      { serial := use.count, msg } addr drained.shaped with
    ⟨ret, failed, send, _⟩ |
    ⟨newMsg, container, index, _, _, _, slot, arg, send⟩
  · simp only [send, if_neg failed]
    exact ⟨Or.inl drained, received⟩
  · simp only [send, if_true]
    refine ⟨Or.inr ⟨{ serial := use.count, msg }, ?_⟩, received⟩
    exact {
      slot := by
        refine ⟨index, slot, ?_⟩
        rw [arg]
        exact Function.update_self ..
      permits := by
        change Machine.release use.queue.permits = 1
        rw [drained.permits]
        rfl
      pending := by
        change use.pending ++ _ = _
        rw [drained.pending]
        rfl
      serial := Nat.lt_succ_self _ }

theorem single_turn (op : QueueOp μ) (single : Single event order use)
    (alone : SendsAlone use op) :
    Single event order (queueRunTurn event use op) := by
  obtain ⟨state, received⟩ := single
  cases op with
  | recv =>
      rcases state with drained | ⟨sent, loaded⟩
      · rw [recv_drained event use drained]
        exact ⟨Or.inl drained, received⟩
      · obtain ⟨drained, receipts⟩ := recv_loaded event use sent loaded
        refine ⟨Or.inl drained, ?_⟩
        intro receipt member
        rw [receipts] at member
        rcases List.mem_append.mp member with old | new
        · exact received receipt old
        · rw [List.mem_singleton.mp new]
          exact ⟨sent, rfl, isNext_single event order sent⟩
  | send msg addr =>
      rcases state with drained | ⟨sent, loaded⟩
      · exact send_drained event order use msg addr drained received
      · have shaped : Shaped use.queue.container := by
          obtain ⟨index, slot, _⟩ := loaded.slot
          exact Or.inr ⟨index, slot⟩
        unfold queueRunTurn
        rcases prioEventSend_cases (Sent.eventBy event) use.queue
            { serial := use.count, msg } addr shaped with
          ⟨ret, failed, send, _⟩ |
          ⟨newMsg, container, index, isAddr, free, room, _⟩
        · simp only [send, if_neg failed]
          exact ⟨Or.inr ⟨sent, loaded⟩, received⟩
        · have empty := alone msg newMsg (by rw [isAddr]) free room
          rw [loaded.pending] at empty
          cases empty

/-- A second message overwrites the first, and there is a permit for one of
them only. -/
theorem not_delivers_turn (op : QueueOp μ) (single : Single event order use)
    (crowded : ¬ SendsAlone use op) :
    ¬ Delivers event order (queueRunTurn event use op) := by
  intro delivers
  unfold SendsAlone at crowded
  push Not at crowded
  obtain ⟨msg, addr, isSend, free, room, waits⟩ := crowded
  have shaped := single.shaped
  rcases single.1 with drained | ⟨sent, loaded⟩
  · exact waits drained.pending
  · rw [isSend] at delivers
    rcases prioEventSend_cases (Sent.eventBy event) use.queue
        { serial := use.count, msg } (some addr) shaped with
      ⟨ret, failed, send, blocked⟩ |
      ⟨newMsg, container, index, _, _, _, slot, arg, send⟩
    · rw [blocked addr rfl free] at room
      cases room
    · have apart : use.count ≠ sent.serial := Nat.ne_of_gt loaded.serial
      have permit : Machine.release 1 ≠ 0 := by decide
      have turned : queueRunTurn event use (.send msg (some addr)) =
          { use with
            queue := { container, permits := Machine.release use.queue.permits,
                       heap := Function.update use.queue.heap newMsg
                         (some { serial := use.count, msg }) }
            count := use.count + 1
            pending := use.pending ++ [{ serial := use.count, msg }] } := by
        unfold queueRunTurn
        simp only [send, if_true]
      have drains := delivers.drains
      rw [turned, loaded.pending, loaded.permits] at drains
      obtain ⟨after, _, recv⟩ := prioEventRecv_slot
        { container, permits := Machine.release 1,
          heap := Function.update use.queue.heap newMsg
            (some { serial := use.count, msg }) } index slot permit
      -- the first receive uses up the permit, and the second one fails
      have first : queueRunTurn event
          { use with
            queue := { container, permits := Machine.release 1,
                       heap := Function.update use.queue.heap newMsg
                         (some { serial := use.count, msg }) }
            count := use.count + 1
            pending := [sent] ++ [{ serial := use.count, msg }] } .recv =
          { queue := { container := after, permits := 0,
                       heap := Function.update (Function.update use.queue.heap
                         newMsg (some { serial := use.count, msg })) newMsg
                         none }
            count := use.count + 1
            pending := [sent]
            receipts := use.receipts ++ [([sent] ++
              [{ serial := use.count, msg }],
              some { serial := use.count, msg })] } := by
        unfold queueRunTurn
        simp only [recv, arg, Function.update_self]
        simp [apart, Machine.release]
      change (queueRunTurn event (queueRunTurn event _ .recv) .recv).pending = []
        at drains
      rw [first, queueRunTurn, prioEventRecv_none _ rfl] at drains
      cases drains

end Turn

/-- The queue delivers through a run exactly if every send that goes through
finds nothing pending. -/
theorem delivers_iff (size : Nat) (event : μ → Nat) (order : QueueOrder)
    (ops : List (QueueOp μ)) :
    Always (queueRunTurn event) (Delivers event order) (queueRunStart size μ)
        ops ↔
      Along (queueRunTurn event) SendsAlone (queueRunStart size μ) ops := by
  have start : Single event order (queueRunStart size μ) := by
    refine ⟨Or.inl ?_, ?_⟩
    · exact { shaped := Or.inl rfl, permits := rfl, pending := rfl }
    · intro receipt member
      cases member
  apply always_iff_along (Delivers event order) SendsAlone
    (Single event order)
  · intro use op single _ alone
    exact single_turn event order use op single alone
  · intro use op single _
    constructor
    · intro delivers
      by_contra crowded
      exact not_delivers_turn event order use op single crowded delivers
    · intro alone
      exact (single_turn event order use op single alone).delivers
  · exact start
  · exact start.delivers

/-- Two sends in a row: the second message is received, and the first one never
is. -/
theorem firstMessage_lost :
    let use := run (queueRunTurn id) (queueRunStart 2 Nat)
      [.send 5 (some 0), .send 3 (some 1), .recv, .recv]
    use.receipts =
        [([{ serial := 0, msg := 5 }, { serial := 1, msg := 3 }],
          some { serial := 1, msg := 3 })] ∧
      use.pending = [{ serial := 0, msg := 5 }] ∧
      ∀ order, ¬ Delivers id order use := by
  refine ⟨by decide, by decide, ?_⟩
  intro order delivers
  have drains := delivers.drains
  revert drains
  decide

end XR872.SysCtrl
