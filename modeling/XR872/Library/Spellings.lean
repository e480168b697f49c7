/-
How messages spell numbers and fields.

A number in groups of seven bits, the lowest first, has the top bit in all bytes
but the last. Fields that begin with a code and the length of their data stand
one behind another up to a mark; a walk over them sees each field's code and
length, and the place behind it. The mark is where the next field is put.
-/

import XR872.Library.BitView
import XR872.Library.Memory

namespace XR872.Base128

open BitView

def spelled (number : Nat) : List Byte :=
  if number < 128 then [BitVec.ofNat 8 number]
  else (BitVec.ofNat 8 (number % 128) ||| 128#8) :: spelled (number / 128)
termination_by number

theorem spelled_small (number : Nat) (small : number < 128) :
    spelled number = [BitVec.ofNat 8 number] := by
  rw [spelled, if_pos small]

theorem spelled_large (number : Nat) (large : 128 ≤ number) :
    spelled number =
      (BitVec.ofNat 8 (number % 128) ||| 128#8) :: spelled (number / 128) := by
  rw [spelled, if_neg (Nat.not_lt.mpr large)]

/-! ### One byte -/

theorem group_last (number : Nat) (small : number < 128) :
    (BitVec.ofNat 8 number &&& 127#8).toNat = number ∧
      BitVec.ofNat 8 number &&& 128#8 = 0#8 := by
  have every : ∀ group : Fin 128,
      (BitVec.ofNat 8 group &&& 127#8).toNat = group ∧
        BitVec.ofNat 8 group &&& 128#8 = 0#8 := by decide
  exact every ⟨number, small⟩

theorem group_inner (number : Nat) :
    ((BitVec.ofNat 8 (number % 128) ||| 128#8) &&& 127#8).toNat =
        number % 128 ∧
      (BitVec.ofNat 8 (number % 128) ||| 128#8) &&& 128#8 = 128#8 := by
  have every : ∀ group : Fin 128,
      ((BitVec.ofNat 8 group ||| 128#8) &&& 127#8).toNat = group ∧
        (BitVec.ofNat 8 group ||| 128#8) &&& 128#8 = 128#8 := by decide
  exact every ⟨number % 128, Nat.mod_lt _ (by decide)⟩

/-! ### The length -/

theorem length_spelled_pos (number : Nat) : 0 < (spelled number).length := by
  rw [spelled]
  split <;> exact Nat.zero_lt_succ _

theorem length_spelled_le (count number : Nat)
    (fits : number < 128 ^ (count + 1)) :
    (spelled number).length ≤ count + 1 := by
  induction count generalizing number with
  | zero =>
      rw [spelled_small number (by omega)]
      exact Nat.le_refl _
  | succ count ih =>
      by_cases small : number < 128
      · rw [spelled_small number small, List.length_singleton]
        omega
      · rw [spelled_large number (Nat.le_of_not_lt small), List.length_cons]
        have lower : number / 128 < 128 ^ (count + 1) := by
          apply Nat.div_lt_of_lt_mul
          rw [← Nat.pow_succ']
          exact fits
        exact Nat.succ_le_succ (ih (number / 128) lower)

end XR872.Base128

namespace XR872.TaggedFields

open BitView
open Memories

structure Field where
  code : Byte
  data : List Byte
  short : data.length < 256

namespace Field

variable (field : Field)

def size : Nat := field.data.length + 2

def bytes : List Byte :=
  field.code :: BitVec.ofNat 8 field.data.length :: field.data

@[simp] theorem length_bytes : field.bytes.length = field.size := rfl

theorem toNat_length :
    (BitVec.ofNat 8 field.data.length).toNat = field.data.length := by
  rw [BitVec.toNat_ofNat, Nat.mod_eq_of_lt field.short]

end Field

def bytesOf (fields : List Field) : List Byte := fields.flatMap Field.bytes

@[simp] theorem bytesOf_nil : bytesOf [] = [] := rfl

@[simp] theorem bytesOf_cons (field : Field) (fields : List Field) :
    bytesOf (field :: fields) = field.bytes ++ bytesOf fields := rfl

theorem bytesOf_concat (fields : List Field) (field : Field) :
    bytesOf (fields ++ [field]) = bytesOf fields ++ field.bytes := by
  unfold bytesOf
  rw [List.flatMap_append, List.flatMap_singleton]

def room (fields : List Field) : Nat := (fields.map Field.size).sum

@[simp] theorem room_nil : room [] = 0 := rfl

@[simp] theorem room_cons (field : Field) (fields : List Field) :
    room (field :: fields) = field.size + room fields := rfl

@[simp] theorem room_concat (fields : List Field) (field : Field) :
    room (fields ++ [field]) = room fields + field.size := by
  simp [room]

@[simp] theorem length_bytesOf (fields : List Field) :
    (bytesOf fields).length = room fields := by
  induction fields with
  | nil => rfl
  | cons field rest ih =>
      rw [bytesOf_cons, List.length_append, ih, Field.length_bytes, room_cons]

theorem length_le_room (fields : List Field) : fields.length ≤ room fields := by
  induction fields with
  | nil => exact Nat.le_refl _
  | cons field rest ih =>
      rw [room_cons, List.length_cons, Field.size]
      omega

/-! ### Fields in a memory -/

variable {memory : Nat → Byte} {place : Nat} {mark : Byte}
  {fields : List Field}

def Spelled (memory : Nat → Byte) (place : Nat) (mark : Byte) :
    List Field → Prop
  | [] => memory place = mark
  | field :: rest =>
      memory place = field.code ∧
        memory (place + 1) = BitVec.ofNat 8 field.data.length ∧
        load memory (place + 2) field.data.length = field.data ∧
        Spelled memory (place + field.size) mark rest

theorem spelled_iff (fields : List Field) :
    Spelled memory place mark fields ↔
      load memory place (room fields + 1) = bytesOf fields ++ [mark] := by
  induction fields generalizing place with
  | nil =>
      rw [Spelled, room_nil, bytesOf_nil, load_succ, load_zero, List.nil_append,
        List.singleton_inj]
  | cons field rest ih =>
      have size : field.size + room rest + 1 =
          field.data.length + (room rest + 1) + 1 + 1 := by
        unfold Field.size
        omega
      have behind : place + 2 + field.data.length = place + field.size := by
        unfold Field.size
        omega
      have split : load memory place (field.size + room rest + 1) =
          memory place :: memory (place + 1) ::
            (load memory (place + 2) field.data.length ++
              load memory (place + field.size) (room rest + 1)) := by
        rw [size, load_succ, load_succ, load_append, Nat.add_assoc place 1 1,
          behind]
      rw [Spelled, ih, room_cons, split, bytesOf_cons, Field.bytes,
        List.append_assoc, List.cons_append, List.cons_append,
        List.cons.injEq, List.cons.injEq,
        List.append_eq_append_iff_of_size_eq_left (length_load _ _ _)]

theorem Spelled.congr {memory' : Nat → Byte}
    (spelled : Spelled memory place mark fields)
    (same : ∀ address, place ≤ address → address ≤ place + room fields →
      memory' address = memory address) :
    Spelled memory' place mark fields := by
  rw [spelled_iff] at spelled ⊢
  rw [← spelled]
  apply load_congr
  intro index within
  exact same _ (by omega) (by omega)

theorem Spelled.concat (spelled : Spelled memory place mark fields)
    (field : Field) :
    Spelled (store memory (place + room fields) (field.bytes ++ [mark])) place
      mark (fields ++ [field]) := by
  rw [spelled_iff] at spelled ⊢
  have before : load memory place (room fields) = bytesOf fields := by
    rw [load_append] at spelled
    exact (List.append_inj spelled (by rw [length_load, length_bytesOf])).1
  have size : room (fields ++ [field]) + 1 =
      room fields + (field.bytes ++ [mark]).length := by
    rw [room_concat, List.length_append, Field.length_bytes,
      List.length_singleton, Nat.add_assoc]
  rw [size, load_store_append, before, bytesOf_concat, List.append_assoc]

/-! ### Looking for a code -/

def locate (code : Byte) : List Field → Option Nat
  | [] => none
  | field :: rest =>
      if field.code = code then some 2
      else (locate code rest).map (field.size + ·)

theorem locate_eq_none (code : Byte) (fields : List Field) :
    locate code fields = none ↔ ∀ field ∈ fields, field.code ≠ code := by
  induction fields with
  | nil => simp [locate]
  | cons field rest ih =>
      rw [locate, List.forall_mem_cons]
      split
      · next here => simp [here]
      · next other => simp [ih, other]

theorem Spelled.data_at (spelled : Spelled memory place mark fields)
    (code : Byte) (at_ : Nat) (found : locate code fields = some at_) :
    ∃ field, fields.find? (fun field => field.code = code) = some field ∧
      load memory (place + at_) field.data.length = field.data ∧
      at_ + field.data.length ≤ room fields := by
  induction fields generalizing place at_ with
  | nil => cases found
  | cons field rest ih =>
      rw [locate] at found
      rw [List.find?_cons]
      by_cases here : field.code = code
      · rw [if_pos here] at found
        cases found
        refine ⟨field, by simp [here], spelled.2.2.1, ?_⟩
        rw [room_cons, Field.size]
        omega
      · rw [if_neg here] at found
        obtain ⟨later, inRest, same⟩ := Option.map_eq_some_iff.mp found
        obtain ⟨other, isFirst, data, within⟩ := ih spelled.2.2.2 later inRest
        refine ⟨other, by simpa [here] using isFirst, ?_, ?_⟩
        · rw [← same, ← Nat.add_assoc]
          exact data
        · rw [room_cons]
          omega

/-! ### Fields put in as long as there is room -/

def putIn (limit : Nat) (fields : List Field) (field : Field) : List Field :=
  if room fields + field.size < limit then fields ++ [field] else fields

def putAll (limit : Nat) (fields more : List Field) : List Field :=
  more.foldl (putIn limit) fields

theorem putIn_eq_append (limit : Nat) (fields : List Field) (field : Field) :
    ∃ more, putIn limit fields field = fields ++ more := by
  unfold putIn
  split
  · exact ⟨[field], rfl⟩
  · exact ⟨[], (List.append_nil fields).symm⟩

theorem putAll_eq_append (limit : Nat) (fields others : List Field) :
    ∃ more, putAll limit fields others = fields ++ more := by
  induction others generalizing fields with
  | nil => exact ⟨[], (List.append_nil fields).symm⟩
  | cons field others ih =>
      obtain ⟨first, here⟩ := putIn_eq_append limit fields field
      obtain ⟨later, there⟩ := ih (putIn limit fields field)
      refine ⟨first ++ later, ?_⟩
      rw [← List.append_assoc, ← here, ← there]
      rfl

end XR872.TaggedFields
