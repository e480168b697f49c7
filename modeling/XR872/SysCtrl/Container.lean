/-
The sorted list and its pool of nodes.

A push takes the first node of the pool without unlinking it, and a pop puts the
node back to the list it was taken from. From the first push on the list is the
one node that the pool shows, and every push overwrites its argument.
-/

import XR872.Library.Circle

namespace XR872.SysCtrl

open Circles

/-! ### Links -/

section List

variable {α : Type} [DecidableEq α]

def initListHead (links : Links α) (node : α) : Links α :=
  (links.setNext node node).setPrev node node

def listAdd (links : Links α) (new head : α) : Links α :=
  links.insert new head (links.next head)

def listAddTail (links : Links α) (new head : α) : Links α :=
  links.insert new (links.prev head) head

def listDel (links : Links α) (entry : α) : Links α := links.remove entry

def listEmpty (links : Links α) (head : α) : Bool :=
  decide (links.next head = head)

theorem initListHead_alone (links : Links α) (node : α)
    (alone : Alone links node) : initListHead links node = links := by
  unfold initListHead Links.setNext Links.setPrev
  rw [Function.update_eq_iff.mpr ⟨alone.1.symm, fun _ _ => rfl⟩,
    Function.update_eq_iff.mpr ⟨alone.2.symm, fun _ _ => rfl⟩]

end List

/-! ### The container -/

/-- The nodes of a container: its two list heads, and `poolBuf`. -/
inductive Node (size : Nat) where
  | head
  | pool
  | buf (index : Fin size)
deriving DecidableEq, Repr

structure SortedList (size : Nat) (α : Type) where
  links : Links (Node size)
  /-- The field `arg` of every node of `poolBuf`. -/
  args : Fin size → α

variable {size : Nat} {α : Type}

/-- The nodes of `poolBuf` in the order in which they are put into the pool. -/
def poolOrder (size : Nat) : List (Node size) :=
  (List.finRange size).reverse.map Node.buf

def sortedListInit (size : Nat) (α : Type) [Zero α] : SortedList size α :=
  let heads :=
    initListHead (initListHead (Links.apart (Node size)) .head) .pool
  { links := (poolOrder size).foldl
      (fun links node => listAddTail (initListHead links node) node .pool) heads
    args := fun _ => 0 }

/-- Where the scan of the list puts a new argument: the place `tmp` that
`list_add` inserts behind. `none` is a scan that goes round for ever, or that
leaves the list. -/
def sortedListPlace (compare : α → α → Int) (list : SortedList size α)
    (arg : α) : Nat → Node size → Option (Node size)
  | 0, _ => none
  | _ + 1, .head => some .head
  | _ + 1, .pool => none
  | fuel + 1, .buf index =>
      if 0 ≤ compare arg (list.args index) then
        some (list.links.prev (.buf index))
      else
        sortedListPlace compare list arg fuel (list.links.next (.buf index))

def sortedListRoom (list : SortedList size α) : Bool :=
  !listEmpty list.links .pool

/-- A push behind its wait for a node: the node is not taken out of the pool.
A scan that meets more entries than there are nodes never ends. -/
def sortedListInsert (compare : α → α → Int) (list : SortedList size α)
    (arg : α) : Option (SortedList size α) :=
  match list.links.next .pool with
  | .buf index =>
      let stored := { list with args := Function.update list.args index arg }
      (sortedListPlace compare stored arg (size + 2)
        (stored.links.next .head)).map fun tmp =>
          { stored with links := listAdd stored.links (.buf index) tmp }
  | _ => none

inductive TakeAnswer (size : Nat) (α : Type) where
  | empty
  | node (arg : α) (list : SortedList size α)
  /-- The first entry is not a node of `poolBuf`. -/
  | broken

/-- A pop behind its wait for the semaphore. -/
def sortedListTake (list : SortedList size α) : TakeAnswer size α :=
  match list.links.next .head with
  | .head => .empty
  | .pool => .broken
  | .buf index =>
      .node (list.args index)
        { list with
          links := listAddTail (listDel list.links (.buf index)) (.buf index)
            .head }

/-! ### The list as it is made -/

section Init

theorem pool_foldl (nodes items : List (Node size)) (links : Links (Node size))
    (circle : Circle links .pool items)
    (fresh : ∀ node ∈ nodes, node ∉ Node.pool :: items)
    (nodup : nodes.Nodup) (alone : ∀ node ∈ nodes, Alone links node)
    (outside : Node.head ∉ nodes) (inside : Node.head ∉ items)
    (empty : Circle links .head []) :
    let made := nodes.foldl
      (fun links node => listAddTail (initListHead links node) node .pool) links
    Circle made .pool (items ++ nodes) ∧ Circle made .head [] := by
  induction nodes generalizing links items with
  | nil =>
      rw [List.append_nil]
      exact ⟨circle, empty⟩
  | cons node rest ih =>
      obtain ⟨notRest, nodup⟩ := List.nodup_cons.mp nodup
      have freshNode := fresh node List.mem_cons_self
      have notHead : Node.head ≠ node := by
        intro same
        rw [same] at outside
        exact outside List.mem_cons_self
      rw [List.foldl_cons,
        initListHead_alone links node (alone node List.mem_cons_self)]
      have added := circle.insert_last node freshNode
      have headApart : Node.head ∉ (Node.pool :: items : List (Node size)) := by
        intro member
        rcases List.mem_cons.mp member with same | member
        · cases same
        · exact inside member
      have result := ih (items ++ [node])
        (listAddTail links node .pool) added ?_ nodup ?_
        (fun member => outside (List.mem_cons_of_mem _ member)) ?_ ?_
      · rw [← List.append_cons] at result
        exact result
      · intro other member inner
        rcases List.mem_cons.mp inner with atPool | inner
        · apply fresh other (List.mem_cons_of_mem _ member)
          rw [atPool]
          exact List.mem_cons_self
        · rcases List.mem_append.mp inner with old | new
          · exact fresh other (List.mem_cons_of_mem _ member)
              (List.mem_cons_of_mem _ old)
          · rw [List.mem_singleton.mp new] at member
            exact notRest member
      · intro other member
        have apart : other ≠ node := by
          intro same
          rw [same] at member
          exact notRest member
        exact circle.alone_insert node other freshNode
          (fresh other (List.mem_cons_of_mem _ member)) apart
          (alone other (List.mem_cons_of_mem _ member))
      · intro member
        rcases List.mem_append.mp member with old | new
        · exact inside old
        · exact notHead (List.mem_singleton.mp new)
      · exact circle_nil _ _ (circle.alone_insert node .head freshNode headApart
          notHead empty.path)

theorem nodup_poolOrder (size : Nat) : (poolOrder size).Nodup := by
  unfold poolOrder
  apply List.Nodup.map
  · intro left right same
    exact Node.buf.inj same
  · exact List.nodup_reverse.mpr (List.nodup_finRange size)

theorem mem_poolOrder (node : Node size) :
    node ∈ poolOrder size ↔ ∃ index, node = .buf index := by
  unfold poolOrder
  constructor
  · intro member
    obtain ⟨index, _, same⟩ := List.mem_map.mp member
    exact ⟨index, same.symm⟩
  · rintro ⟨index, same⟩
    rw [same]
    exact List.mem_map_of_mem
      (List.mem_reverse.mpr (List.mem_finRange index))

variable [Zero α]

theorem sortedListInit_circles (size : Nat) :
    Circle (sortedListInit size α).links .pool (poolOrder size) ∧
      Circle (sortedListInit size α).links .head [] := by
  have heads : initListHead
      (initListHead (Links.apart (Node size)) .head) .pool =
        Links.apart (Node size) := by
    rw [initListHead_alone _ _ ⟨rfl, rfl⟩, initListHead_alone _ _ ⟨rfl, rfl⟩]
  unfold sortedListInit
  rw [heads]
  apply pool_foldl (poolOrder size) [] (Links.apart (Node size))
  · exact circle_nil _ _ ⟨rfl, rfl⟩
  · intro node member inside
    obtain ⟨index, same⟩ := (mem_poolOrder node).mp member
    rw [List.mem_singleton.mp inside] at same
    cases same
  · exact nodup_poolOrder size
  · intro node _
    exact ⟨rfl, rfl⟩
  · intro member
    obtain ⟨index, same⟩ := (mem_poolOrder _).mp member
    cases same
  · exact List.not_mem_nil
  · exact circle_nil _ _ ⟨rfl, rfl⟩

theorem sortedListRoom_init : sortedListRoom (sortedListInit size α) = true ↔
    0 < size := by
  obtain ⟨pool, _⟩ := @sortedListInit_circles α _ size
  have alone := pool.alone_iff
  unfold sortedListRoom listEmpty
  rw [Bool.not_eq_true', decide_eq_false_iff_not, alone]
  unfold poolOrder
  rw [List.map_eq_nil_iff, List.reverse_eq_nil_iff, List.finRange_eq_nil_iff]
  exact (Nat.pos_iff_ne_zero).symm

end Init

/-! ### One slot -/

/-- The list before the first push: the pool shows a node, and nothing is
pending. -/
structure Fresh (list : SortedList size α) (index : Fin size) : Prop where
  pool : list.links.next .pool = .buf index
  front : list.links.next .head = .head
  back : list.links.prev .head = .head

/-- The list from the first push on: the pool and the list both show the same
node, and its own links lead nowhere else. -/
structure Slot (list : SortedList size α) (index : Fin size) : Prop where
  pool : list.links.next .pool = .buf index
  front : list.links.next .head = .buf index
  back : list.links.prev .head = .buf index
  before : list.links.prev (.buf index) = .head ∨
    list.links.prev (.buf index) = .buf index
  after : list.links.next (.buf index) = .head ∨
    list.links.next (.buf index) = .buf index

theorem fresh_init [Zero α] (positive : 0 < size) :
    ∃ index, Fresh (sortedListInit size α) index := by
  obtain ⟨pool, head⟩ := @sortedListInit_circles α _ size
  have next := path_next _ _ _ _ pool.path
  cases order : poolOrder size with
  | nil =>
      have member := (mem_poolOrder (.buf ⟨0, positive⟩)).mpr ⟨_, rfl⟩
      rw [order] at member
      cases member
  | cons first rest =>
      have member : first ∈ poolOrder size := by
        rw [order]
        exact List.mem_cons_self
      obtain ⟨index, same⟩ := (mem_poolOrder first).mp member
      rw [order, same] at next
      exact ⟨index, { pool := next, front := head.path.1, back := head.path.2 }⟩

variable (compare : α → α → Int) (list : SortedList size α) (arg : α)
  (index : Fin size)

theorem sortedListInsert_fresh (fresh : Fresh list index) :
    ∃ next, sortedListInsert compare list arg = some next ∧ Slot next index ∧
      next.args index = arg := by
  unfold sortedListInsert
  rw [fresh.pool]
  simp only [fresh.front, sortedListPlace, Option.map_some, listAdd]
  refine ⟨_, rfl, ?_, Function.update_self ..⟩
  exact {
    pool := by simp [insert_next, fresh.pool]
    front := by simp [insert_next]
    back := by simp [insert_prev]
    before := by simp [insert_prev]
    after := by simp [insert_next] }

/-- With a comparison that never puts an argument behind itself, a push finds
the node it has just taken and inserts it before itself. -/
theorem sortedListInsert_slot (slot : Slot list index)
    (before : 0 ≤ compare arg arg) :
    ∃ next, sortedListInsert compare list arg = some next ∧ Slot next index ∧
      next.args index = arg := by
  unfold sortedListInsert
  rw [slot.pool]
  simp only [slot.front, sortedListPlace, Function.update_self, if_pos before,
    Option.map_some, listAdd]
  refine ⟨_, rfl, ?_, Function.update_self ..⟩
  rcases slot.before with atHead | atNode
  · simp only [atHead, slot.front]
    exact {
      pool := by simp [insert_next, slot.pool]
      front := by simp [insert_next]
      back := by simp [Links.insert, Links.setNext, Links.setPrev, slot.back]
      before := by simp [Links.insert, Links.setNext, Links.setPrev]
      after := by simp [insert_next] }
  · simp only [atNode]
    rcases slot.after with toHead | toNode
    · simp only [toHead]
      exact {
        pool := by simp [insert_next, slot.pool]
        front := by simp [insert_next, slot.front]
        back := by simp [insert_prev]
        before := by simp [insert_prev]
        after := by simp [insert_next] }
    · simp only [toNode]
      exact {
        pool := by simp [insert_next, slot.pool]
        front := by simp [insert_next, slot.front]
        back := by simp [Links.insert, Links.setNext, Links.setPrev, slot.back]
        before := by simp [Links.insert, Links.setNext, Links.setPrev]
        after := by simp [insert_next] }

/-- A pop hands out the argument of the node and leaves the node where it
was. -/
theorem sortedListTake_slot (slot : Slot list index) :
    ∃ next, sortedListTake list = .node (list.args index) next ∧
      Slot next index ∧ next.args = list.args := by
  unfold sortedListTake
  rw [slot.front]
  refine ⟨_, rfl, ?_, rfl⟩
  have poolNext : (list.links.remove (.buf index)).next .pool = .buf index := by
    rw [remove_next]
    rcases slot.before with same | same <;> simp [same, slot.pool]
  unfold listAddTail listDel
  rcases slot.after with toHead | toNode
  · have prevHead : (list.links.remove (.buf index)).prev .head =
        list.links.prev (.buf index) := by
      simp [remove_prev, toHead]
    rcases slot.before with atHead | atNode
    · rw [prevHead, atHead]
      exact {
        pool := by simp [insert_next, poolNext]
        front := by simp [insert_next]
        back := by simp [insert_prev]
        before := by simp [insert_prev]
        after := by simp [insert_next] }
    · rw [prevHead, atNode]
      exact {
        pool := by simp [insert_next, poolNext]
        front := by simp [insert_next, remove_next, atNode, slot.front]
        back := by simp [insert_prev]
        before := by simp [insert_prev]
        after := by simp [insert_next] }
  · have prevHead : (list.links.remove (.buf index)).prev .head = .buf index := by
      simp [remove_prev, toNode, slot.back]
    rw [prevHead]
    exact {
      pool := by simp [insert_next, poolNext]
      front := by
        rcases slot.before with atHead | atNode
        · simp [insert_next, remove_next, atHead, toNode]
        · simp [insert_next, remove_next, atNode, slot.front]
      back := by simp [insert_prev]
      before := by simp [insert_prev]
      after := by simp [insert_next] }

end XR872.SysCtrl
