/-
Plain memory.

A store goes where it is told and as far as its data reach, whatever object it
was meant for. Objects are places with a size; in a row of objects no two share
an address.
-/

import Mathlib

namespace XR872.Memories

variable {α : Type}

def store (memory : Nat → α) (place : Nat) (data : List α) : Nat → α :=
  fun address =>
    if place ≤ address then data.getD (address - place) (memory address)
    else memory address

def load (memory : Nat → α) (place size : Nat) : List α :=
  (List.range size).map fun index => memory (place + index)

theorem store_nil (memory : Nat → α) (place : Nat) :
    store memory place [] = memory := by
  funext address
  unfold store
  rw [List.getD_nil, ite_self]

theorem store_before (memory : Nat → α) (place : Nat) (data : List α)
    (address : Nat) (before : address < place) :
    store memory place data address = memory address :=
  if_neg (Nat.not_le.mpr before)

theorem store_inside (memory : Nat → α) (place : Nat) (data : List α)
    (index : Nat) :
    store memory place data (place + index) =
      data.getD index (memory (place + index)) := by
  unfold store
  rw [if_pos (Nat.le_add_right _ _), Nat.add_sub_cancel_left]

theorem store_behind (memory : Nat → α) (place : Nat) (data : List α)
    (address : Nat) (behind : place + data.length ≤ address) :
    store memory place data address = memory address := by
  unfold store
  rw [if_pos (by omega), List.getD_eq_default _ _ (by omega)]

theorem store_outside (memory : Nat → α) (place : Nat) (data : List α)
    (address : Nat)
    (outside : address < place ∨ place + data.length ≤ address) :
    store memory place data address = memory address := by
  rcases outside with before | behind
  · exact store_before memory place data address before
  · exact store_behind memory place data address behind

@[simp] theorem length_load (memory : Nat → α) (place size : Nat) :
    (load memory place size).length = size := by
  simp [load]

theorem load_zero (memory : Nat → α) (place : Nat) :
    load memory place 0 = [] := rfl

theorem load_succ (memory : Nat → α) (place size : Nat) :
    load memory place (size + 1) =
      memory place :: load memory (place + 1) size := by
  unfold load
  rw [List.range_succ_eq_map, List.map_cons, List.map_map, Nat.add_zero]
  congr 1
  apply List.map_congr_left
  intro index _
  exact congrArg memory (by change place + (index + 1) = _; omega)

theorem load_append (memory : Nat → α) (place first second : Nat) :
    load memory place (first + second) =
      load memory place first ++ load memory (place + first) second := by
  induction first generalizing place with
  | zero => rw [Nat.zero_add, load_zero, List.nil_append, Nat.add_zero]
  | succ first ih =>
      rw [Nat.succ_add, load_succ, load_succ, ih, List.cons_append,
        Nat.add_right_comm, Nat.add_assoc place first 1]

theorem getElem?_load (memory : Nat → α) (place size index : Nat)
    (within : index < size) :
    (load memory place size)[index]? = some (memory (place + index)) := by
  unfold load
  rw [List.getElem?_map, List.getElem?_range within]
  rfl

theorem mem_load (memory : Nat → α) (place size : Nat) (value : α) :
    value ∈ load memory place size ↔
      ∃ index, index < size ∧ memory (place + index) = value := by
  unfold load
  simp only [List.mem_map, List.mem_range]

theorem load_congr (left right : Nat → α) (place size : Nat)
    (same : ∀ index, index < size →
      left (place + index) = right (place + index)) :
    load left place size = load right place size := by
  unfold load
  apply List.map_congr_left
  intro index within
  exact same index (List.mem_range.mp within)

theorem load_getD (data : List α) (default : α) :
    load (fun index => data.getD index default) 0 data.length = data := by
  apply List.ext_getElem?
  intro index
  by_cases within : index < data.length
  · rw [getElem?_load _ _ _ _ within, Nat.zero_add,
      List.getD_eq_getElem _ _ within, List.getElem?_eq_getElem within]
  · rw [List.getElem?_eq_none (by rw [length_load]; omega),
      List.getElem?_eq_none (by omega)]

theorem load_store (memory : Nat → α) (place : Nat) (data : List α) :
    load (store memory place data) place data.length = data := by
  apply List.ext_getElem?
  intro index
  by_cases within : index < data.length
  · rw [getElem?_load _ _ _ _ within, store_inside,
      List.getD_eq_getElem _ _ within, List.getElem?_eq_getElem within]
  · rw [List.getElem?_eq_none (by rw [length_load]; omega),
      List.getElem?_eq_none (by omega)]

def Laid (memory : Nat → α) (place : Nat) (data : List α) : Prop :=
  load memory place data.length = data

theorem laid_store (memory : Nat → α) (place : Nat) (data : List α) :
    Laid (store memory place data) place data :=
  load_store memory place data

theorem laid_cons_iff (memory : Nat → α) (place : Nat) (value : α)
    (rest : List α) :
    Laid memory place (value :: rest) ↔
      memory place = value ∧ Laid memory (place + 1) rest := by
  unfold Laid
  rw [List.length_cons, load_succ, List.cons.injEq]

theorem laid_append_iff (memory : Nat → α) (place : Nat)
    (first second : List α) :
    Laid memory place (first ++ second) ↔
      Laid memory place first ∧
        Laid memory (place + first.length) second := by
  unfold Laid
  rw [List.length_append, load_append,
    List.append_eq_append_iff_of_size_eq_left (length_load _ _ _)]

theorem Laid.store {memory : Nat → α} {place : Nat} {data : List α}
    (laid : Laid memory place data) (other : Nat) (stored : List α)
    (apart : place + data.length ≤ other ∨ other + stored.length ≤ place) :
    Laid (store memory other stored) place data := by
  unfold Laid
  rw [load_congr _ memory]
  · exact laid
  · intro index within
    exact store_outside _ _ _ _ (by omega)

theorem load_store_take (memory : Nat → α) (place count : Nat)
    (data : List α) (within : count ≤ data.length) :
    load (store memory place data) place count = data.take count := by
  apply List.ext_getElem?
  intro index
  by_cases below : index < count
  · rw [getElem?_load _ _ _ _ below, store_inside,
      List.getD_eq_getElem _ _ (by omega), List.getElem?_take_of_lt below,
      List.getElem?_eq_getElem (by omega)]
  · rw [List.getElem?_eq_none (by rw [length_load]; omega),
      List.getElem?_eq_none (by rw [List.length_take]; omega)]

theorem load_store_append_take (memory : Nat → α) (place size count : Nat)
    (data : List α) (within : count ≤ data.length) :
    load (store memory (place + size) data) place (size + count) =
      load memory place size ++ data.take count := by
  rw [load_append, load_store_take _ _ _ _ within]
  congr 1
  apply load_congr
  intro index below
  exact store_before _ _ _ _ (by omega)

theorem load_store_append (memory : Nat → α) (place size : Nat)
    (data : List α) :
    load (store memory (place + size) data) place (size + data.length) =
      load memory place size ++ data := by
  rw [load_append, load_store]
  congr 1
  apply load_congr
  intro index within
  exact store_before _ _ _ _ (by omega)

theorem store_store (memory : Nat → α) (place : Nat) (first second : List α) :
    store (store memory place first) (place + first.length) second =
      store memory place (first ++ second) := by
  funext address
  unfold store
  by_cases before : place ≤ address
  · simp only [before, if_true, List.getD_eq_getElem?_getD]
    by_cases inFirst : address - place < first.length
    · rw [if_neg (by omega), List.getElem?_append_left inFirst,
        List.getElem?_eq_getElem inFirst]
    · rw [if_pos (by omega), List.getElem?_append_right (by omega),
        List.getElem?_eq_none (by omega : first.length ≤ address - place),
        Nat.sub_sub, Option.getD_none]
  · rw [if_neg (by omega), if_neg before, if_neg before]

theorem store_load (memory : Nat → α) (place size : Nat) :
    store memory place (load memory place size) = memory := by
  funext address
  unfold store
  by_cases before : place ≤ address
  · rw [if_pos before, List.getD_eq_getElem?_getD]
    by_cases within : address - place < size
    · rw [getElem?_load _ _ _ _ within, Nat.add_sub_cancel' before]
      rfl
    · rw [List.getElem?_eq_none (by rw [length_load]; omega)]
      rfl
  · rw [if_neg before]

/-! ### Objects in a row -/

section Layout

variable {ι : Type} [DecidableEq ι] (align size : ι → Nat)

/-- The next address from `place` on that is a multiple of `align`. -/
def alignUp (place align : Nat) : Nat := (place + (align - 1)) / align * align

/-- The place of an object when the row begins at `start`. -/
def placeFrom (start : Nat) : List ι → ι → Nat
  | [], _ => start
  | object :: rest, wanted =>
      if object = wanted then alignUp start (align object)
      else placeFrom (alignUp start (align object) + size object) rest wanted

theorem le_alignUp (place align : Nat) (positive : 0 < align) :
    place ≤ alignUp place align := by
  have split := Nat.div_add_mod (place + (align - 1)) align
  have small := Nat.mod_lt (place + (align - 1)) positive
  unfold alignUp
  rw [Nat.mul_comm]
  omega

variable {align size}

theorem le_placeFrom (positive : ∀ object, 0 < align object) (start : Nat)
    (row : List ι) (wanted : ι) :
    start ≤ placeFrom align size start row wanted := by
  induction row generalizing start with
  | nil => exact Nat.le_refl start
  | cons object rest ih =>
      have up := le_alignUp start (align object) (positive object)
      unfold placeFrom
      by_cases found : object = wanted
      · rw [if_pos found]
        exact up
      · rw [if_neg found]
        exact Nat.le_trans (by omega) (ih _)

theorem placeFrom_apart (positive : ∀ object, 0 < align object) (start : Nat)
    (row : List ι) (left right : ι) (first : left ∈ row) (second : right ∈ row)
    (different : left ≠ right) :
    placeFrom align size start row left + size left ≤
        placeFrom align size start row right ∨
      placeFrom align size start row right + size right ≤
        placeFrom align size start row left := by
  induction row generalizing start with
  | nil => cases first
  | cons object rest ih =>
      unfold placeFrom
      by_cases isLeft : object = left
      · rw [if_pos isLeft, if_neg (fun same => different (isLeft.symm.trans same))]
        left
        rw [← isLeft]
        exact le_placeFrom positive _ rest right
      · by_cases isRight : object = right
        · rw [if_neg isLeft, if_pos isRight]
          right
          rw [← isRight]
          exact le_placeFrom positive _ rest left
        · rw [if_neg isLeft, if_neg isRight]
          have inRest := (List.mem_cons.mp first).resolve_left (Ne.symm isLeft)
          have inRest' := (List.mem_cons.mp second).resolve_left (Ne.symm isRight)
          exact ih _ inRest inRest'

end Layout

end XR872.Memories
