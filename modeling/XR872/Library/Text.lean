/-
Texts that end at the first zero.

A text in a buffer is read up to its zero and written from the start. What is
written without a zero ends where the buffer had one.
-/

import XR872.Library.Buffer

namespace XR872.Texts

open Buffers

variable {α : Type} [Zero α] [DecidableEq α] {n : Nat}

/-- Characters without a zero among them. -/
structure Text (α : Type) [Zero α] where
  chars : List α
  noZero : (0 : α) ∉ chars
deriving DecidableEq

def untilZero (chars : List α) : List α :=
  chars.takeWhile fun char => decide (char ≠ 0)

theorem zero_not_mem_untilZero (chars : List α) :
    (0 : α) ∉ untilZero chars := by
  intro member
  have nonzero := List.mem_takeWhile_imp member
  rw [decide_eq_true_iff] at nonzero
  exact nonzero rfl

def textOf (chars : List α) : Text α :=
  { chars := untilZero chars
    noZero := zero_not_mem_untilZero chars }

theorem untilZero_append (text rest : List α) (noZero : (0 : α) ∉ text) :
    untilZero (text ++ 0 :: rest) = text := by
  unfold untilZero
  rw [List.takeWhile_append_of_pos]
  · rw [List.takeWhile_cons_of_neg (by simp), List.append_nil]
  · intro char member
    rw [decide_eq_true_iff]
    intro zero
    exact noZero (zero ▸ member)

theorem untilZero_of_noZero (chars : List α) (noZero : (0 : α) ∉ chars) :
    untilZero chars = chars := by
  unfold untilZero
  rw [List.takeWhile_eq_self_iff]
  intro char member
  rw [decide_eq_true_iff]
  intro zero
  exact noZero (zero ▸ member)

theorem untilZero_append_zeros (chars : List α) (count : Nat) :
    untilZero (chars ++ List.replicate count 0) = untilZero chars := by
  by_cases member : (0 : α) ∈ chars
  · obtain ⟨text, rest, rfl, noZero⟩ := List.eq_append_cons_of_mem member
    rw [List.append_assoc, List.cons_append, untilZero_append _ _ noZero,
      untilZero_append _ _ noZero]
  · cases count with
    | zero => rw [List.replicate_zero, List.append_nil]
    | succ count =>
        rw [List.replicate_succ, untilZero_append _ _ member,
          untilZero_of_noZero _ member]

def readText (buffer : Buffer α n) : Option (List α) :=
  if (0 : α) ∈ buffer.cells then some (untilZero buffer.cells) else none

def writeText (buffer : Buffer α n) (data : List α) : Option (Buffer α n) :=
  if within : 0 + data.length ≤ n then some (buffer.store 0 data within)
  else none

theorem read_of_zero_at (buffer : Buffer α n) (text : List α)
    (noZero : (0 : α) ∉ text) (start : text <+: buffer.cells)
    (ends : buffer.cells[text.length]? = some 0) : readText buffer = some text := by
  obtain ⟨rest, cells⟩ := start
  rw [← cells, List.getElem?_append_right (Nat.le_refl _), Nat.sub_self] at ends
  cases rest with
  | nil => cases ends
  | cons char later =>
      cases ends
      unfold readText
      rw [← cells, if_pos (List.mem_append_right _ List.mem_cons_self),
        untilZero_append text later noZero]

omit [Zero α] [DecidableEq α] in
theorem write_of_fits (buffer : Buffer α n) (data : List α)
    (fits : data.length ≤ n) :
    ∃ written, writeText buffer data = some written ∧ data <+: written.cells ∧
      ∀ index, data.length ≤ index →
        written.cells[index]? = buffer.cells[index]? := by
  have within : 0 + data.length ≤ n := by omega
  refine ⟨buffer.store 0 data within, dif_pos within, ?_, ?_⟩
  · rw [Buffer.store_cells, List.take_zero, List.nil_append]
    exact List.prefix_append _ _
  · intro index behind
    exact Buffer.getElem?_store_after _ _ _ _ _ (by omega)

theorem read_write (buffer : Buffer α n) (text : List α)
    (noZero : (0 : α) ∉ text) (fits : text.length < n) :
    ∃ written, writeText buffer (text ++ [0]) = some written ∧
      readText written = some text := by
  obtain ⟨written, done, start, _⟩ := write_of_fits buffer (text ++ [0])
    (by rw [List.length_append]; exact fits)
  refine ⟨written, done, ?_⟩
  obtain ⟨rest, cells⟩ := start
  apply read_of_zero_at written text noZero
  · rw [← cells, List.append_assoc]
    exact List.prefix_append _ _
  · rw [← cells, List.append_assoc,
      List.getElem?_append_right (Nat.le_refl _), Nat.sub_self]
    rfl

/-- One that is written without it is read back where a zero was before. -/
theorem read_write_bare (buffer : Buffer α n) (text : List α)
    (noZero : (0 : α) ∉ text) (fits : text.length < n)
    (ended : buffer.cells[text.length]? = some 0) :
    ∃ written, writeText buffer text = some written ∧
      readText written = some text := by
  obtain ⟨written, done, start, behind⟩ :=
    write_of_fits buffer text (Nat.le_of_lt fits)
  refine ⟨written, done, ?_⟩
  apply read_of_zero_at written text noZero start
  rw [behind _ (Nat.le_refl _), ended]

end XR872.Texts
