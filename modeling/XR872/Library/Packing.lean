/-
Bytes packed into words, four at a time and the lowest first, and checksums of
words that can be taken piece by piece.
-/

import XR872.Library.BitView
import XR872.Library.Blocks

namespace XR872.Packing

open BitView
open Blocks

def packed (bytes : List Byte) : List (BitVec 32) :=
  (full 4 bytes).map (ofBytes 32)

theorem ofBytes_injective (left right : List Byte) (four : left.length = 4)
    (four' : right.length = 4) (same : ofBytes 32 left = ofBytes 32 right) :
    left = right := by
  refine ext_of_bitAt left right (by rw [four, four']) ?_
  intro j within
  have small : j < 32 := by omega
  have bits : (ofBytes 32 left).getLsbD j = (ofBytes 32 right).getLsbD j := by
    rw [same]
  rw [getLsbD_ofBytes, getLsbD_ofBytes] at bits
  simpa [small] using bits

theorem toBytes_ofBytes {n : Nat} (bytes : List Byte)
    (whole : 8 * bytes.length = n) : toBytes (ofBytes n bytes) = bytes := by
  apply ext_of_bitAt
  · rw [toBytes_length]
    omega
  · intro index within
    rw [toBytes_length] at within
    rw [bitAt_toBytes ⟨_, whole.symm⟩, getLsbD_ofBytes,
      decide_eq_true (show index < n by omega), Bool.true_and]

theorem flatMap_toBytes_packed (stream : List Byte) :
    (packed stream).flatMap toBytes ++ rest 4 stream = stream := by
  have blocks : (packed stream).flatMap toBytes = (full 4 stream).flatten := by
    unfold packed
    rw [List.flatMap_map, List.flatten_eq_flatMap]
    apply List.flatMap_congr
    intro block member
    apply toBytes_ofBytes
    rw [mem_full stream block member]
  rw [blocks]
  exact flatten_full (by decide) stream

theorem packed_append (stream more : List Byte) :
    packed (stream ++ more) = packed stream ++ packed (rest 4 stream ++ more) := by
  unfold packed
  rw [full_append (by decide), List.map_append]

theorem packed_append_words (left right : List Byte)
    (whole : left.length % 4 = 0) :
    packed (left ++ right) = packed left ++ packed right := by
  have none : rest 4 left = [] := by
    apply List.eq_nil_of_length_eq_zero
    rw [length_rest, whole]
  rw [packed_append, none, List.nil_append]

theorem packed_slice (stream : List Byte) (start size : Nat)
    (whole : size % 4 = 0) (within : start + size ≤ stream.length) :
    packed ((stream.drop start).take size) =
      (List.range (size / 4)).map fun index =>
        ofBytes 32 ((stream.drop (start + 4 * index)).take 4) := by
  have long : ((stream.drop start).take size).length = size := by
    rw [List.length_take, List.length_drop]
    omega
  unfold packed full
  rw [List.map_map, long]
  apply List.map_congr_left
  intro index member
  have inside := List.mem_range.mp member
  change ofBytes 32 ((List.drop (4 * index) _).take 4) = _
  rw [List.drop_take, List.drop_drop, List.take_take, Nat.min_eq_left (by omega)]

theorem packed_short (stream : List Byte) (short : stream.length < 4) :
    packed stream = [] := by
  unfold packed
  rw [full_short stream short]
  rfl

theorem completed_word (waiting data : List Byte) (part : waiting.length < 4)
    (completes : 4 - waiting.length ≤ data.length) :
    (waiting ++ data.take (4 - waiting.length)).length = 4 ∧
      waiting ++ data =
        (waiting ++ data.take (4 - waiting.length)) ++
          data.drop (4 - waiting.length) := by
  constructor
  · rw [List.length_append, List.length_take]
    omega
  · rw [List.append_assoc, List.take_append_drop]

theorem packed_complete (waiting data : List Byte) (part : waiting.length < 4)
    (completes : 4 - waiting.length ≤ data.length) :
    packed (waiting ++ data) =
      ofBytes 32 (waiting ++ data.take (4 - waiting.length)) ::
        packed (data.drop (4 - waiting.length)) := by
  obtain ⟨whole, split⟩ := completed_word waiting data part completes
  unfold packed
  rw [split, full_block (by decide) _ _ whole, List.map_cons]

theorem length_packed (stream : List Byte) :
    (packed stream).length = stream.length / 4 := by
  unfold packed
  rw [List.length_map, length_full]

theorem rest_complete (waiting data : List Byte) (part : waiting.length < 4)
    (completes : 4 - waiting.length ≤ data.length) :
    rest 4 (waiting ++ data) = rest 4 (data.drop (4 - waiting.length)) := by
  obtain ⟨whole, split⟩ := completed_word waiting data part completes
  rw [split, rest_block (by decide) _ _ whole]

end XR872.Packing

namespace XR872.Checksums

variable {α γ : Type} [AddGroup γ]

/-- The sum of a whole is the sum of its parts, cut at a multiple of `unit`. -/
def Additive (unit : Nat) (sum : List α → γ) : Prop :=
  ∀ front back, unit ∣ front.length → sum (front ++ back) = sum front + sum back

theorem additive_nil (unit : Nat) (sum : List α → γ)
    (additive : Additive unit sum) : sum [] = 0 := by
  have twice := additive [] [] (Nat.dvd_zero unit)
  exact left_eq_add.mp twice

/-- The sum of the 16-bit little-endian words; a last single byte counts as the
low half of one. -/
def wordSum : List (BitVec 8) → BitVec 16
  | [] => 0
  | [low] => low.setWidth 16
  | low :: high :: rest => (high ++ low) + wordSum rest

theorem wordSum_additive : Additive 2 wordSum := by
  intro front back even
  induction front using wordSum.induct with
  | case1 => simp [wordSum]
  | case2 low => simp at even
  | case3 low high rest ih =>
      have shorter : 2 ∣ rest.length := by
        simp only [List.length_cons] at even
        omega
      change (high ++ low) + wordSum (rest ++ back) = _
      rw [ih shorter]
      exact (add_assoc _ _ _).symm

end XR872.Checksums
