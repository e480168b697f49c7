/-
Whether the pool and the list share out the nodes.

The two lists share out the nodes as long as no push finds one in the pool. The
first push that does leaves the node in both lists, and neither is a circle of
nodes of its own any more.
-/

import XR872.SysCtrl.Calls

namespace XR872.SysCtrl

open Circles
open Runs

variable {size : Nat} {α : Type}

/-- The pool and the list are circles that share out the nodes, as many of them
in the list as there are arguments pushed and not popped, and a push found the
pool empty only with all nodes in the list. -/
structure Conserved (machine : Machine size α) : Prop where
  split : ∃ pooled pending, Circle machine.list.links .pool pooled ∧
    Circle machine.list.links .head pending ∧
    (pooled ++ pending).Perm (poolOrder size) ∧
    pending.length + machine.taken = machine.inserted
  full : ∀ count ∈ machine.fullAt, count = size

/-- The turn is not that of a push that finds a node in the pool. -/
def FindsNoNode (machine : Machine size α) (action : Action α) : Prop :=
  ∀ index arg timeout, action = .go index →
    machine.calls[index]? = some (.pushCheck arg timeout) →
    sortedListRoom machine.list = false

def Call.Untouched : Call α → Prop
  | .pushRelease | .popLock | .popTake => False
  | _ => True

structure Unused [Zero α] (machine : Machine size α) : Prop where
  list : machine.list = sortedListInit size α
  permits : machine.permits = 0
  inserted : machine.inserted = 0
  taken : machine.taken = 0
  calls : ∀ call ∈ machine.calls, call.Untouched
  full : ∀ count ∈ machine.fullAt, count = size

section Unused

variable [Zero α]

theorem unused_start : Unused (Machine.start size α) := by
  exact {
    list := rfl
    permits := rfl
    inserted := rfl
    taken := rfl
    calls := by
      intro call member
      cases member
    full := by
      intro count member
      cases member }

theorem Unused.conserved {machine : Machine size α} (unused : Unused machine) :
    Conserved machine := by
  obtain ⟨pool, head⟩ := @sortedListInit_circles α _ size
  exact {
    split := by
      refine ⟨poolOrder size, [], ?_, ?_, ?_, ?_⟩
      · rw [unused.list]
        exact pool
      · rw [unused.list]
        exact head
      · rw [List.append_nil]
      · rw [unused.taken, unused.inserted]
        rfl
    full := unused.full }

theorem Unused.with_calls {machine : Machine size α} (unused : Unused machine)
    (calls : List (Call α)) (lock : Option Nat)
    (untouched : ∀ call ∈ calls, call.Untouched) :
    Unused { machine with calls, lock } := by
  exact {
    list := unused.list
    permits := unused.permits
    inserted := unused.inserted
    taken := unused.taken
    calls := untouched
    full := unused.full }

theorem Unused.put {machine : Machine size α} (unused : Unused machine)
    (index : Nat) (call : Call α) (lock : Option Nat)
    (untouched : call.Untouched) :
    Unused { machine.put index call with lock } :=
  unused.with_calls _ lock
    (forall_set Call.Untouched _ index call unused.calls untouched)

theorem unused_turn (compare : α → α → Int) (machine : Machine size α)
    (action : Action α) (unused : Unused machine)
    (clean : FindsNoNode machine action) :
    Unused (Machine.turn compare machine action) := by
  rcases machine.turn_cases compare action with same | ⟨arg, timeout, _, turned⟩ |
    ⟨_, turned⟩ | ⟨index, _, _, turned⟩ | ⟨index, call, isGo, found, turned⟩
  · rw [same]
    exact unused
  · rw [turned]
    exact unused.with_calls _ _ (forall_concat _ _ _ unused.calls trivial)
  · rw [turned]
    exact unused.with_calls _ _ (forall_concat _ _ _ unused.calls trivial)
  · rw [turned]
    exact unused.put index .popTimeout machine.lock trivial
  · rw [turned]
    have untouched := unused.calls call (List.mem_of_getElem? found)
    cases call with
    | pushLock arg timeout =>
        unfold Machine.advance
        cases machine.lock with
        | none => exact unused.put index _ _ trivial
        | some holder => exact unused
    | pushCheck arg timeout =>
        have empty := clean index arg timeout isGo found
        have waiting := unused.put index (.pushSleep arg timeout) none trivial
        unfold Machine.advance
        simp only [empty, Bool.false_eq_true, if_false]
        exact {
          list := waiting.list
          permits := waiting.permits
          inserted := waiting.inserted
          taken := waiting.taken
          calls := waiting.calls
          full := by
            intro count member
            rcases List.mem_append.mp member with old | new
            · exact unused.full count old
            · rw [List.mem_singleton.mp new]
              unfold Machine.pending
              rw [unused.inserted, unused.taken]
              rw [unused.list] at empty
              by_contra other
              have room := (@sortedListRoom_init size α _).mpr
                (Nat.pos_of_ne_zero (Ne.symm other))
              rw [empty] at room
              cases room }
    | pushSleep arg timeout =>
        by_cases late : timeout ≤ blockWaitEachTime
        · simp only [Machine.advance, if_pos late]
          exact unused.put index (.pushDone false) machine.lock trivial
        · simp only [Machine.advance, if_neg late]
          exact unused.put index (.pushLock arg _) machine.lock trivial
    | pushRelease => exact absurd untouched id
    | pushUnlock => exact unused.put index (.pushDone true) none trivial
    | pushDone ok => exact unused
    | popWait =>
        have locked : ¬ 0 < machine.permits := by
          rw [unused.permits]
          exact Nat.lt_irrefl 0
        simp only [Machine.advance, if_neg locked]
        exact unused
    | popLock => exact absurd untouched id
    | popTake => exact absurd untouched id
    | popUnlock arg => exact unused.put index (.popDone arg) none trivial
    | popTimeout => exact unused
    | popDone arg => exact unused

end Unused

/-- A node that the pool and the list both show is in no two circles. -/
theorem Slot.not_conserved {machine : Machine size α} {index : Fin size}
    (slot : Slot machine.list index) : ¬ Conserved machine := by
  intro conserved
  obtain ⟨pooled, pending, pool, head, share, _⟩ := conserved.split
  have first := path_next _ _ _ _ pool.path
  have nodes : ∀ node ∈ pooled, ∃ place, node = Node.buf place := by
    intro node member
    exact (mem_poolOrder node).mp
      (share.mem_iff.mp (List.mem_append_left _ member))
  rw [slot.pool] at first
  cases pooled with
  | nil => cases first
  | cons node rest =>
      change Node.buf index = node at first
      subst first
      have next := @Circle.next_item _ _ _ [] rest _ pool
      cases rest with
      | nil =>
          change machine.list.links.next (.buf index) = Node.pool at next
          rcases slot.after with toHead | toNode
          · rw [toHead] at next
            cases next
          · rw [toNode] at next
            cases next
      | cons second rest =>
          change machine.list.links.next (.buf index) = second at next
          rcases slot.after with toHead | toNode
          · rw [toHead] at next
            obtain ⟨place, same⟩ := nodes second
              (List.mem_cons_of_mem _ List.mem_cons_self)
            rw [← next] at same
            cases same
          · rw [toNode] at next
            have tail := (List.nodup_cons.mp pool.nodup).2
            apply (List.nodup_cons.mp tail).1
            rw [next]
            exact List.mem_cons_self

theorem not_conserved_turn [Zero α] (compare : α → α → Int)
    (machine : Machine size α) (action : Action α) (unused : Unused machine)
    (finds : ¬ FindsNoNode machine action) :
    ¬ Conserved (Machine.turn compare machine action) := by
  unfold FindsNoNode at finds
  push Not at finds
  obtain ⟨index, arg, timeout, isGo, found, room⟩ := finds
  rw [Bool.ne_false_iff] at room
  have positive : 0 < size := by
    rw [unused.list] at room
    exact sortedListRoom_init.mp room
  obtain ⟨place, fresh⟩ := @fresh_init size α _ positive
  rw [← unused.list] at fresh
  obtain ⟨next, inserted, slot, _⟩ :=
    sortedListInsert_fresh compare machine.list arg place fresh
  rw [isGo, Machine.turn_go compare machine index _ found]
  unfold Machine.advance
  simp only [room, if_true, inserted]
  exact slot.not_conserved

/-- The nodes stay shared out through a run exactly if no push of the run ever
finds a node in the pool. -/
theorem conserved_iff [Zero α] (compare : α → α → Int)
    (actions : List (Action α)) :
    Always (Machine.turn compare) Conserved (Machine.start size α) actions ↔
      Along (Machine.turn compare) FindsNoNode (Machine.start size α)
        actions := by
  apply always_iff_along Conserved FindsNoNode (fun machine => Unused machine)
  · intro machine action unused _ clean
    exact unused_turn compare machine action unused clean
  · intro machine action unused _
    constructor
    · intro conserved
      by_contra finds
      exact not_conserved_turn compare machine action unused finds conserved
    · intro clean
      exact (unused_turn compare machine action unused clean).conserved
  · exact unused_start
  · exact unused_start.conserved

/-- One push on a container of two nodes: the node is the first of the list and
still the first of the pool. -/
theorem firstPush_not_conserved :
    let machine := run (Machine.turn fun _ _ => 0) (Machine.start 2 Nat)
      [.push 7 0, .go 0, .go 0, .go 0, .go 0]
    machine.calls = [.pushDone true] ∧
      machine.list.links.next .head = .buf 1 ∧
      machine.list.links.next .pool = .buf 1 ∧ ¬ Conserved machine := by
  refine ⟨by decide, by decide, by decide, ?_⟩
  have slot : Slot (run (Machine.turn fun _ _ => 0) (Machine.start 2 Nat)
      [.push 7 0, .go 0, .go 0, .go 0, .go 0]).list 1 := {
    pool := by decide
    front := by decide
    back := by decide
    before := by decide
    after := by decide }
  exact slot.not_conserved

end XR872.SysCtrl
