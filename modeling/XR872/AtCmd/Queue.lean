/-
The queue between the serial line and the AT parser.

A read of an empty queue asks the callback once for up to 32 bytes. A delivery
that does not fit the ring is dropped, and the read goes on with whatever the
ring has at its read index; an access outside the ring has no next state.
-/

import XR872.Library.BitView
import XR872.Library.Ring

namespace XR872.AtCmd

open BitView
open Buffers
open Rings

variable {n : Nat}

/-- What one call of the callback writes into `winbuf`; nothing is also the
answer for a count that is not positive. -/
structure Delivery where
  bytes : List Byte
  winbuf : bytes.length ≤ 32
deriving DecidableEq, Repr

/-- The bytes of the deliveries, in order. -/
def streamOf (supply : List Delivery) : List Byte :=
  supply.flatMap Delivery.bytes

/-- The queue over a ring of `n` bytes. The callback is what its calls will
answer: nothing from the end of the list on. -/
structure AtQueue (n : Nat) where
  ring : Ring Byte n
  qcnt : Int
  callback : Option (List Delivery)
deriving DecidableEq, Repr

inductive QueueAnswer where
  | ok (element : Byte)
  | empty
deriving DecidableEq, Repr

/-- `none` is the result -1. -/
def atQueueInit (buf : Option (Buffer Byte n)) (cb : Option (List Delivery)) :
    Option (AtQueue n) :=
  match buf, cb with
  | some cells, some supply =>
      some { ring := Ring.start cells, qcnt := 0, callback := some supply }
  | _, _ => none

/-- What both reads do with the answer of the callback: whether the read goes
on. -/
def atQueueStore (queue : AtQueue n) (winbuf : List Byte) :
    Option (Bool × AtQueue n) :=
  let dcnt : Int := winbuf.length
  if 0 < dcnt then
    -- "queue is overflow": the delivery is lost and the read goes on
    if (n : Int) - queue.qcnt < dcnt then some (true, queue)
    else
      (queue.ring.pushAll winbuf).map fun ring =>
        (true, { queue with ring, qcnt := queue.qcnt + dcnt })
  else some (false, queue)

def atQueueFill (queue : AtQueue n) : Option (Bool × AtQueue n) :=
  if queue.qcnt ≤ 0 then
    match queue.callback with
    | none => some (false, queue)
    | some [] => some (false, queue)
    | some (delivery :: supply) =>
        atQueueStore { queue with callback := some supply } delivery.bytes
  else some (true, queue)

def atQueueGet (queue : AtQueue n) : Option (QueueAnswer × AtQueue n) :=
  match atQueueFill queue with
  | none => none
  | some (false, queue) => some (.empty, queue)
  | some (true, queue) =>
      queue.ring.front.map fun element =>
        (.ok element,
          { queue with ring := queue.ring.advance, qcnt := queue.qcnt - 1 })

def atQueuePeek (queue : AtQueue n) : Option (QueueAnswer × AtQueue n) :=
  match atQueueFill queue with
  | none => none
  | some (false, queue) => some (.empty, queue)
  | some (true, queue) =>
      queue.ring.front.map fun element => (.ok element, queue)

/-- The bytes still to be read: those in the ring, then what the callback will
answer. -/
def AtQueue.unread (queue : AtQueue n) : List Byte :=
  queue.ring.items queue.qcnt.toNat ++ streamOf (queue.callback.getD [])

/-! ### The reader of a stream -/

/-- What the queue is for: the rest of one delivery, and the deliveries to
come. -/
structure Reader where
  ready : List Byte
  coming : List Delivery

namespace Reader

def unread (reader : Reader) : List Byte :=
  reader.ready ++ streamOf reader.coming

def fill (reader : Reader) : Reader :=
  match reader.ready, reader.coming with
  | [], delivery :: coming => { ready := delivery.bytes, coming }
  | _, _ => reader

def get (reader : Reader) : QueueAnswer × Reader :=
  match reader.fill.ready with
  | [] => (.empty, reader.fill)
  | element :: rest => (.ok element, { reader.fill with ready := rest })

def peek (reader : Reader) : QueueAnswer × Reader :=
  match reader.fill.ready with
  | [] => (.empty, reader.fill)
  | element :: _ => (.ok element, reader.fill)

def work (reader : Reader) : Nat :=
  reader.unread.length + reader.coming.length

@[simp] theorem unread_fill (reader : Reader) :
    reader.fill.unread = reader.unread := by
  obtain ⟨ready, coming⟩ := reader
  cases ready with
  | nil =>
      cases coming with
      | nil => rfl
      | cons delivery coming => rfl
  | cons element rest => rfl

theorem work_fill (reader : Reader) : reader.fill.work ≤ reader.work := by
  have same := unread_fill reader
  unfold work
  rw [same]
  obtain ⟨ready, coming⟩ := reader
  cases ready with
  | nil =>
      cases coming with
      | nil => exact Nat.le_refl _
      | cons delivery coming => exact Nat.add_le_add_left (Nat.le_succ _) _
  | cons element rest => exact Nat.le_refl _

theorem get_cases (reader : Reader) :
    (reader.get = (.empty, reader.fill) ∧ reader.fill.ready = []) ∨
      ∃ element rest, reader.fill.ready = element :: rest ∧
        reader.get = (.ok element, { reader.fill with ready := rest }) := by
  unfold get
  cases found : reader.fill.ready with
  | nil => exact Or.inl ⟨rfl, rfl⟩
  | cons element rest => exact Or.inr ⟨element, rest, rfl, rfl⟩

theorem peek_cases (reader : Reader) :
    (reader.peek = (.empty, reader.fill) ∧ reader.fill.ready = []) ∨
      ∃ element rest, reader.fill.ready = element :: rest ∧
        reader.peek = (.ok element, reader.fill) := by
  unfold peek
  cases found : reader.fill.ready with
  | nil => exact Or.inl ⟨rfl, rfl⟩
  | cons element rest => exact Or.inr ⟨element, rest, rfl, rfl⟩

theorem fill_ready (reader : Reader) (element : Byte) (rest : List Byte)
    (found : reader.ready = element :: rest) : reader.fill = reader := by
  unfold fill
  rw [found]

theorem unread_get (reader : Reader) (element : Byte) (rest : List Byte)
    (found : reader.fill.ready = element :: rest) :
    reader.unread =
      element :: ({ reader.fill with ready := rest } : Reader).unread := by
  rw [← unread_fill reader]
  unfold unread
  rw [found, List.cons_append]

theorem work_get (reader : Reader) (element : Byte) (rest : List Byte)
    (found : reader.fill.ready = element :: rest) :
    ({ reader.fill with ready := rest } : Reader).work < reader.work := by
  have bound := work_fill reader
  have longer : reader.fill.unread =
      element :: ({ reader.fill with ready := rest } : Reader).unread := by
    rw [unread_fill]
    exact unread_get reader element rest found
  unfold work at bound ⊢
  rw [longer, List.length_cons] at bound
  change _ + reader.fill.coming.length < _
  omega

/-- A read that finds nothing has used up an empty delivery, or the stream is
at its end. -/
theorem work_empty (reader : Reader) (nothing : reader.fill.ready = []) :
    reader.fill.work < reader.work ∨ reader.work = 0 := by
  obtain ⟨ready, coming⟩ := reader
  cases ready with
  | nil =>
      cases coming with
      | nil => exact Or.inr rfl
      | cons delivery coming =>
          have same := unread_fill ⟨[], delivery :: coming⟩
          refine Or.inl ?_
          unfold work
          rw [same]
          exact Nat.add_lt_add_left (Nat.lt_succ_self _) _
  | cons element rest => cases nothing

end Reader

/-! ### The queue reads the stream -/

/-- The queue holds what the reader has ready, and its callback brings the
rest. -/
structure Reads (queue : AtQueue n) (reader : Reader) : Prop where
  ring : Holds queue.ring reader.ready
  qcnt : queue.qcnt = reader.ready.length
  callback : queue.callback = some reader.coming
  fits : ∀ delivery ∈ reader.coming, delivery.bytes.length ≤ n

structure Holding (queue : AtQueue n) (reader : Reader) : Prop where
  ring : Holds queue.ring reader.ready
  qcnt : queue.qcnt = reader.ready.length
  callback : queue.callback = some reader.coming

/-- The delivery that the next read asks for, if it asks for one, fits the
ring. -/
def AtQueue.NextFits (queue : AtQueue n) : Prop :=
  queue.qcnt ≤ 0 →
    ∀ delivery ∈ (queue.callback.getD []).head?, delivery.bytes.length ≤ n

instance (queue : AtQueue n) : Decidable queue.NextFits :=
  inferInstanceAs (Decidable (_ → ∀ delivery ∈ _, _))

theorem Reads.holding {queue : AtQueue n} {reader : Reader}
    (reads : Reads queue reader) : Holding queue reader :=
  { ring := reads.ring, qcnt := reads.qcnt, callback := reads.callback }

theorem Reads.nextFits {queue : AtQueue n} {reader : Reader}
    (reads : Reads queue reader) : queue.NextFits := by
  intro _ delivery first
  rw [reads.callback] at first
  exact reads.fits delivery (List.mem_of_mem_head? first)

theorem holding_unread (queue : AtQueue n) (reader : Reader)
    (holding : Holding queue reader) : queue.unread = reader.unread := by
  unfold AtQueue.unread Reader.unread
  rw [holding.qcnt, Int.toNat_natCast, items_holds _ _ holding.ring,
    holding.callback]
  rfl

theorem reads_unread (queue : AtQueue n) (reader : Reader)
    (reads : Reads queue reader) : queue.unread = reader.unread :=
  holding_unread queue reader reads.holding

theorem holding_init (cells : Buffer Byte n) (supply : List Delivery) :
    ∃ queue, atQueueInit (some cells) (some supply) = some queue ∧
      Holding queue { ready := [], coming := supply } := by
  refine ⟨_, rfl, ?_⟩
  exact {
    ring := holds_start cells
    qcnt := rfl
    callback := rfl }

theorem atQueueStore_holding (queue : AtQueue n) (coming : List Delivery)
    (winbuf : List Byte) (holding : Holding queue { ready := [], coming })
    (fit : winbuf.length ≤ n) :
    ∃ filled, Holding filled { ready := winbuf, coming } ∧
      (winbuf = [] ∧ atQueueStore queue winbuf = some (false, filled) ∨
        winbuf ≠ [] ∧ atQueueStore queue winbuf = some (true, filled)) := by
  have zero : queue.qcnt = 0 := holding.qcnt
  unfold atQueueStore
  by_cases arrived : winbuf = []
  · rw [arrived]
    exact ⟨queue, holding, Or.inl ⟨rfl, rfl⟩⟩
  · have positive : 0 < (winbuf.length : Int) := by
      have := List.length_pos_of_ne_nil arrived
      omega
    have roomy : ¬ (n : Int) - queue.qcnt < winbuf.length := by omega
    obtain ⟨ring, pushed, holds⟩ := pushAll_holds queue.ring [] winbuf
      holding.ring (by rw [List.length_nil]; omega)
    refine ⟨{ queue with ring, qcnt := queue.qcnt + winbuf.length }, ?_,
      Or.inr ⟨arrived, ?_⟩⟩
    · exact {
        ring := holds
        qcnt := by
          change queue.qcnt + _ = _
          rw [zero, Int.zero_add]
        callback := holding.callback }
    · rw [if_pos positive, if_neg roomy, pushed]
      rfl

theorem atQueueFill_holding (queue : AtQueue n) (reader : Reader)
    (holding : Holding queue reader) (fits : queue.NextFits) :
    ∃ filled, Holding filled reader.fill ∧
      (reader.fill.ready = [] ∧ atQueueFill queue = some (false, filled) ∨
        reader.fill.ready ≠ [] ∧ atQueueFill queue = some (true, filled)) := by
  obtain ⟨ready, coming⟩ := reader
  unfold atQueueFill
  cases ready with
  | cons element rest =>
      have stocked : ¬ queue.qcnt ≤ 0 := by
        rw [holding.qcnt, List.length_cons]
        omega
      refine ⟨queue, holding, Or.inr ⟨List.cons_ne_nil _ _, ?_⟩⟩
      rw [if_neg stocked]
  | nil =>
      have drained : queue.qcnt ≤ 0 := by
        rw [holding.qcnt]
        exact Int.le_refl 0
      have fit := fits drained
      rw [holding.callback] at fit
      rw [if_pos drained, holding.callback]
      cases coming with
      | nil => exact ⟨queue, holding, Or.inl ⟨rfl, rfl⟩⟩
      | cons delivery coming =>
          have asked : Holding { queue with callback := some coming }
              { ready := [], coming } := {
            ring := holding.ring
            qcnt := holding.qcnt
            callback := rfl }
          exact atQueueStore_holding _ coming delivery.bytes asked
            (fit delivery rfl)

/-- `at_queue_get` reads the stream. -/
theorem atQueueGet_holding (queue : AtQueue n) (reader : Reader)
    (holding : Holding queue reader) (fits : queue.NextFits) :
    ∃ next, atQueueGet queue = some (reader.get.1, next) ∧
      Holding next reader.get.2 := by
  obtain ⟨filled, kept, answer⟩ := atQueueFill_holding queue reader holding fits
  unfold atQueueGet Reader.get
  rcases answer with ⟨nothing, fill⟩ | ⟨something, fill⟩
  · rw [fill, nothing]
    exact ⟨filled, rfl, kept⟩
  · obtain ⟨element, rest, found⟩ := List.exists_cons_of_ne_nil something
    have holds := kept.ring
    have count := kept.qcnt
    rw [found] at holds count
    rw [fill, found]
    refine ⟨_, congrArg (Option.map _) (front_holds _ _ _ holds), ?_⟩
    exact {
      ring := advance_holds _ _ _ holds
      qcnt := by
        change filled.qcnt - 1 = (rest.length : Int)
        rw [count, List.length_cons]
        omega
      callback := kept.callback }

/-- `at_queue_peek` shows the next byte and leaves it there. -/
theorem atQueuePeek_holding (queue : AtQueue n) (reader : Reader)
    (holding : Holding queue reader) (fits : queue.NextFits) :
    ∃ next, atQueuePeek queue = some (reader.peek.1, next) ∧
      Holding next reader.peek.2 := by
  obtain ⟨filled, kept, answer⟩ := atQueueFill_holding queue reader holding fits
  unfold atQueuePeek Reader.peek
  rcases answer with ⟨nothing, fill⟩ | ⟨something, fill⟩
  · rw [fill, nothing]
    exact ⟨filled, rfl, kept⟩
  · obtain ⟨element, rest, found⟩ := List.exists_cons_of_ne_nil something
    have holds := kept.ring
    rw [found] at holds
    rw [fill, found]
    exact ⟨filled, congrArg (Option.map _) (front_holds _ _ _ holds), kept⟩

/-! ### Deliveries that all fit -/

theorem Holding.reads {queue : AtQueue n} {reader : Reader}
    (holding : Holding queue reader)
    (fits : ∀ delivery ∈ reader.coming, delivery.bytes.length ≤ n) :
    Reads queue reader :=
  { ring := holding.ring, qcnt := holding.qcnt, callback := holding.callback,
    fits := fits }

theorem coming_fill (reader : Reader) :
    ∀ delivery ∈ reader.fill.coming, delivery ∈ reader.coming := by
  obtain ⟨ready, coming⟩ := reader
  intro delivery member
  cases ready with
  | cons element rest => exact member
  | nil =>
      cases coming with
      | nil => exact member
      | cons first rest => exact List.mem_cons_of_mem _ member

theorem reads_init (cells : Buffer Byte n) (supply : List Delivery)
    (fits : ∀ delivery ∈ supply, delivery.bytes.length ≤ n) :
    ∃ queue, atQueueInit (some cells) (some supply) = some queue ∧
      Reads queue { ready := [], coming := supply } := by
  obtain ⟨queue, init, holding⟩ := holding_init cells supply
  exact ⟨queue, init, holding.reads fits⟩

theorem atQueueGet_reads (queue : AtQueue n) (reader : Reader)
    (reads : Reads queue reader) :
    ∃ next, atQueueGet queue = some (reader.get.1, next) ∧
      Reads next reader.get.2 := by
  obtain ⟨next, get, holding⟩ :=
    atQueueGet_holding queue reader reads.holding reads.nextFits
  refine ⟨next, get, holding.reads ?_⟩
  rcases reader.get_cases with ⟨nothing, _⟩ | ⟨element, rest, _, taken⟩
  · rw [nothing]
    exact fun delivery member =>
      reads.fits delivery (coming_fill reader delivery member)
  · rw [taken]
    exact fun delivery member =>
      reads.fits delivery (coming_fill reader delivery member)

theorem atQueuePeek_reads (queue : AtQueue n) (reader : Reader)
    (reads : Reads queue reader) :
    ∃ next, atQueuePeek queue = some (reader.peek.1, next) ∧
      Reads next reader.peek.2 := by
  obtain ⟨next, peek, holding⟩ :=
    atQueuePeek_holding queue reader reads.holding reads.nextFits
  refine ⟨next, peek, holding.reads ?_⟩
  rcases reader.peek_cases with ⟨nothing, _⟩ | ⟨element, rest, _, seen⟩
  · rw [nothing]
    exact fun delivery member =>
      reads.fits delivery (coming_fill reader delivery member)
  · rw [seen]
    exact fun delivery member =>
      reads.fits delivery (coming_fill reader delivery member)

end XR872.AtCmd
