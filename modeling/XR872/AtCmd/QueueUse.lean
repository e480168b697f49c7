/-
Every order of gets and peeks on the queue.

With a delivery that fits, a read takes one byte off the stream or shows it.
A delivery that does not fit is lost at once: a peek leaves the stream without
it, and a get also takes the count below zero.
-/

import XR872.AtCmd.Queue
import XR872.Library.Run

namespace XR872.AtCmd

open BitView
open Buffers
open Rings
open Runs

variable {n : Nat}

inductive QueueCall where
  | get
  | peek
deriving DecidableEq, Repr

structure QueueUse (n : Nat) where
  queue : AtQueue n
  /-- The bytes of the successful gets. -/
  got : List Byte
  /-- The bytes of the successful peeks, each with the number of bytes got
  before it. -/
  shown : List (Nat × Byte)
  /-- A call left the ring. -/
  outside : Bool
deriving DecidableEq, Repr

def queueUseStart (queue : AtQueue n) : QueueUse n :=
  { queue, got := [], shown := [], outside := false }

def queueTurn (use : QueueUse n) (call : QueueCall) : QueueUse n :=
  if use.outside then use
  else
    match call with
    | .get =>
        match atQueueGet use.queue with
        | none => { use with outside := true }
        | some (.empty, queue) => { use with queue }
        | some (.ok element, queue) =>
            { use with queue, got := use.got ++ [element] }
    | .peek =>
        match atQueuePeek use.queue with
        | none => { use with outside := true }
        | some (.empty, queue) => { use with queue }
        | some (.ok element, queue) =>
            { use with
              queue
              shown := use.shown ++ [(use.got.length, element)] }

/-- The queue stays inside its ring, and what was got is the stream without
what the ring holds and what the callback still brings. -/
structure InOrder (supply : List Delivery) (use : QueueUse n) : Prop where
  inside : use.outside = false
  count : 0 ≤ use.queue.qcnt ∧ use.queue.qcnt ≤ n
  ridx : use.queue.ring.ridx < n
  widx : use.queue.ring.widx < n
  bytes : use.got ++ use.queue.unread = streamOf supply
  /-- A byte that was shown is the one that was got next. -/
  shown : ∀ place byte next, (place, byte) ∈ use.shown →
    use.got[place]? = some next → next = byte

/-! ### Reads of a stream -/

structure Reading (supply : List Delivery) (use : QueueUse n)
    (reader : Reader) : Prop where
  inside : use.outside = false
  room : 0 < n
  holding : Holding use.queue reader
  bytes : use.got ++ reader.unread = streamOf supply
  shown : ∀ place byte, (place, byte) ∈ use.shown →
    (streamOf supply)[place]? = some byte

theorem Reading.inOrder {supply : List Delivery} {use : QueueUse n}
    {reader : Reader} (reading : Reading supply use reader) :
    InOrder supply use := by
  have ring := reading.holding.ring
  exact {
    inside := reading.inside
    count := by
      have held := ring.room
      rw [reading.holding.qcnt]
      omega
    ridx := by
      rw [ring.reads]
      exact Nat.mod_lt _ reading.room
    widx := by
      rw [ring.writes]
      exact Nat.mod_lt _ reading.room
    bytes := by
      rw [holding_unread _ _ reading.holding]
      exact reading.bytes
    shown := by
      intro place byte next member taken
      have seen := reading.shown place byte member
      have below : place < use.got.length :=
        (List.getElem?_eq_some_iff.mp taken).1
      rw [← reading.bytes, List.getElem?_append_left below, taken] at seen
      exact Option.some.inj seen }

theorem reading_start (cells : Buffer Byte n) (supply : List Delivery)
    (queue : AtQueue n)
    (init : atQueueInit (some cells) (some supply) = some queue)
    (room : 0 < n) :
    Reading supply (queueUseStart queue) { ready := [], coming := supply } := by
  obtain ⟨same, known, holding⟩ := holding_init cells supply
  rw [known] at init
  cases init
  exact {
    inside := rfl
    room := room
    holding := holding
    bytes := rfl
    shown := by
      intro place byte member
      cases member }

theorem reading_turn (supply : List Delivery) (use : QueueUse n)
    (reader : Reader) (call : QueueCall) (reading : Reading supply use reader)
    (fits : use.queue.NextFits) :
    ∃ later, Reading supply (queueTurn use call) later := by
  have running : ¬ use.outside = true := by
    rw [reading.inside]
    exact Bool.false_ne_true
  unfold queueTurn
  rw [if_neg running]
  cases call with
  | get =>
      obtain ⟨next, get, holding⟩ :=
        atQueueGet_holding use.queue reader reading.holding fits
      rcases reader.get_cases with ⟨nothing, _⟩ | ⟨element, rest, found, taken⟩
      · rw [nothing] at get holding
        refine ⟨reader.fill, ?_⟩
        simp only [get]
        exact {
          inside := reading.inside
          room := reading.room
          holding := holding
          bytes := by
            rw [reader.unread_fill]
            exact reading.bytes
          shown := reading.shown }
      · rw [taken] at get holding
        refine ⟨{ reader.fill with ready := rest }, ?_⟩
        simp only [get]
        exact {
          inside := reading.inside
          room := reading.room
          holding := holding
          bytes := by
            rw [List.append_assoc, List.singleton_append,
              ← reader.unread_get element rest found]
            exact reading.bytes
          shown := reading.shown }
  | peek =>
      obtain ⟨next, peek, holding⟩ :=
        atQueuePeek_holding use.queue reader reading.holding fits
      refine ⟨reader.fill, ?_⟩
      have bytes : use.got ++ reader.fill.unread = streamOf supply := by
        rw [reader.unread_fill]
        exact reading.bytes
      rcases reader.peek_cases with ⟨nothing, _⟩ | ⟨element, rest, found, seen⟩
      · rw [nothing] at peek holding
        simp only [peek]
        exact {
          inside := reading.inside
          room := reading.room
          holding := holding
          bytes := bytes
          shown := reading.shown }
      · rw [seen] at peek holding
        simp only [peek]
        exact {
          inside := reading.inside
          room := reading.room
          holding := holding
          bytes := bytes
          shown := by
            intro place byte member
            rcases List.mem_append.mp member with old | new
            · exact reading.shown place byte old
            · cases List.mem_singleton.mp new
              rw [← reading.bytes, reader.unread_get element rest found,
                List.getElem?_append_right (Nat.le_refl _), Nat.sub_self]
              rfl }

/-! ### Deliveries that do not fit -/

theorem atQueueFill_overflow (queue : AtQueue n) (reader : Reader)
    (holding : Holding queue reader) (large : ¬ queue.NextFits) :
    ∃ delivery coming, reader.ready = [] ∧
      reader.coming = delivery :: coming ∧ delivery.bytes ≠ [] ∧
      atQueueFill queue = some (true, { queue with callback := some coming }) := by
  unfold AtQueue.NextFits at large
  rw [Classical.not_imp] at large
  obtain ⟨drained, large⟩ := large
  have empty : reader.ready = [] := by
    rw [holding.qcnt] at drained
    exact List.eq_nil_of_length_eq_zero (by omega)
  rw [holding.callback, Option.getD_some] at large
  cases brings : reader.coming with
  | nil =>
      rw [brings] at large
      exact absurd (fun delivery member => by cases member) large
  | cons delivery coming =>
      rw [brings] at large
      have size : n < delivery.bytes.length := by
        by_contra fit
        apply large
        intro other member
        cases member
        omega
      have arrived : delivery.bytes ≠ [] := by
        intro nothing
        rw [nothing] at size
        exact absurd size (Nat.not_lt_zero n)
      have zero : queue.qcnt = 0 := by
        rw [holding.qcnt, empty]
        rfl
      have positive : 0 < (delivery.bytes.length : Int) := by omega
      have exceeds : (n : Int) - queue.qcnt < delivery.bytes.length := by omega
      refine ⟨delivery, coming, empty, rfl, arrived, ?_⟩
      unfold atQueueFill
      rw [if_pos drained, holding.callback, brings]
      unfold atQueueStore
      exact (if_pos positive).trans (if_pos exceeds)

theorem not_inOrder_overflow (supply : List Delivery) (use : QueueUse n)
    (reader : Reader) (call : QueueCall) (reading : Reading supply use reader)
    (large : ¬ use.queue.NextFits) :
    ¬ InOrder supply (queueTurn use call) := by
  obtain ⟨delivery, coming, empty, brings, arrived, fill⟩ :=
    atQueueFill_overflow use.queue reader reading.holding large
  have running : ¬ use.outside = true := by
    rw [reading.inside]
    exact Bool.false_ne_true
  have zero : use.queue.qcnt = 0 := by
    rw [reading.holding.qcnt, empty]
    rfl
  intro inOrder
  unfold queueTurn at inOrder
  rw [if_neg running] at inOrder
  cases call with
  | get =>
      unfold atQueueGet at inOrder
      simp only [fill] at inOrder
      cases stale : use.queue.ring.front with
      | none =>
          simp only [stale, Option.map_none] at inOrder
          cases inOrder.inside
      | some element =>
          simp only [stale, Option.map_some] at inOrder
          have positive := inOrder.count.1
          change 0 ≤ use.queue.qcnt - 1 at positive
          omega
  | peek =>
      unfold atQueuePeek at inOrder
      simp only [fill] at inOrder
      cases stale : use.queue.ring.front with
      | none =>
          simp only [stale, Option.map_none] at inOrder
          cases inOrder.inside
      | some element =>
          simp only [stale, Option.map_some] at inOrder
          have bytes := inOrder.bytes
          have lost : use.got ++ streamOf coming = streamOf supply := by
            unfold AtQueue.unread at bytes
            rw [zero] at bytes
            exact bytes
          have before := reading.bytes
          unfold Reader.unread at before
          rw [empty, brings, List.nil_append, ← lost] at before
          have same : delivery.bytes ++ streamOf coming = streamOf coming :=
            List.append_cancel_left before
          exact arrived (List.append_left_eq_self.mp same)

/-- The queue keeps the order of the stream through a run exactly if it has any
room and every delivery it asks for fits. -/
theorem inOrder_iff (cells : Buffer Byte n) (supply : List Delivery)
    (queue : AtQueue n)
    (init : atQueueInit (some cells) (some supply) = some queue)
    (calls : List QueueCall) :
    Always queueTurn (InOrder supply) (queueUseStart queue) calls ↔
      0 < n ∧ Along queueTurn (fun use _ => use.queue.NextFits)
        (queueUseStart queue) calls := by
  by_cases room : 0 < n
  · have start := reading_start cells supply queue init room
    rw [and_iff_right room]
    apply always_iff_along (InOrder supply) _
      (fun use => ∃ reader, Reading supply use reader)
    · rintro use call ⟨reader, reading⟩ _ fits
      exact reading_turn supply use reader call reading fits
    · rintro use call ⟨reader, reading⟩ _
      constructor
      · intro kept
        by_contra large
        exact not_inOrder_overflow supply use reader call reading large kept
      · intro fits
        obtain ⟨later, next⟩ := reading_turn supply use reader call reading fits
        exact next.inOrder
    · exact ⟨_, start⟩
    · exact start.inOrder
  · constructor
    · intro always
      have first := (always [] List.nil_prefix).ridx
      exact absurd (Nat.zero_lt_of_lt first) room
    · intro both
      exact absurd both.1 room

/-- Two deliveries over a ring of three bytes, the second around its end. -/
def roundSupply : List Delivery :=
  [ { bytes := [0x41#8, 0x54#8], winbuf := by decide },
    { bytes := [0x2b#8, 0x53#8, 0x0d#8], winbuf := by decide } ]

theorem roundSupply_inOrder :
    Always queueTurn (InOrder roundSupply)
      (queueUseStart
        { ring := Ring.start (Buffer.fill 3 0), qcnt := 0,
          callback := some roundSupply })
      [.peek, .get, .get, .peek, .get, .get, .get, .get] := by
  apply (inOrder_iff (Buffer.fill 3 0) roundSupply _ rfl _).mpr
  exact ⟨by decide, by decide, by decide, by decide, by decide, by decide,
    by decide, by decide, by decide, trivial⟩

def largeSupply : List Delivery :=
  [{ bytes := [0x41#8, 0x54#8, 0x0d#8], winbuf := by decide }]

/-- The delivery is lost, a byte that was never delivered is returned, and the
count goes below zero. -/
theorem largeSupply_lost :
    let use := run queueTurn
      (queueUseStart
        { ring := Ring.start (Buffer.fill 2 0), qcnt := 0,
          callback := some largeSupply })
      [.get]
    use.got = [0#8] ∧ use.queue.unread = [] ∧ use.queue.qcnt = -1 ∧
      ¬ InOrder largeSupply use := by
  refine ⟨by decide, by decide, by decide, ?_⟩
  intro inOrder
  have positive := inOrder.count.1
  revert positive
  decide

end XR872.AtCmd
