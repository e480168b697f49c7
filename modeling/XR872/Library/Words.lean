/-
The words of a text, and loops over them.

Words are what stands between separators. A loop that skips separators, takes
what is in front of the next one and goes on behind it runs over the words in
their order.
-/

import Mathlib

namespace XR872.Words

variable {α : Type} (blank : α → Bool)

def words (text : List α) : List (List α) :=
  (text.splitOnP blank).filter fun word => !word.isEmpty

def solid (char : α) : Bool := !blank char

theorem words_nil : words blank ([] : List α) = [] := rfl

theorem words_cons_blank (char : α) (text : List α)
    (is_blank : blank char = true) :
    words blank (char :: text) = words blank text := by
  unfold words
  rw [List.splitOnP_cons_eq_if_modifyHead, if_pos is_blank]
  rfl

theorem words_dropWhile (text : List α) :
    words blank (text.dropWhile blank) = words blank text := by
  induction text with
  | nil => rfl
  | cons char text ih =>
      by_cases is_blank : blank char = true
      · rw [List.dropWhile_cons_of_pos is_blank, ih,
          words_cons_blank _ _ _ is_blank]
      · rw [List.dropWhile_cons_of_neg is_blank]

theorem words_single (word : List α) (some_ : word ≠ [])
    (inside : ∀ char ∈ word, solid blank char = true) :
    words blank word = [word] := by
  unfold words
  rw [List.splitOnP_eq_singleton
    fun char member => Bool.not_eq_true' _ ▸ inside char member]
  simp [some_]

theorem words_append (word : List α) (separator : α) (rest : List α)
    (some_ : word ≠ []) (inside : ∀ char ∈ word, solid blank char = true)
    (is_blank : blank separator = true) :
    words blank (word ++ separator :: rest) = word :: words blank rest := by
  unfold words
  rw [List.splitOnP_append_cons_of_forall_mem
    (fun char member => Bool.not_eq_true' _ ▸ inside char member) _ is_blank]
  simp [some_]

theorem words_cons (char : α) (later : List α)
    (is_solid : solid blank char = true) :
    words blank (char :: later) =
      (char :: later).takeWhile (solid blank) ::
        words blank ((char :: later).dropWhile (solid blank)).tail := by
  have some_ : (char :: later).takeWhile (solid blank) ≠ [] := by
    rw [List.takeWhile_cons_of_pos is_solid]
    exact List.cons_ne_nil _ _
  have inside : ∀ other ∈ (char :: later).takeWhile (solid blank),
      solid blank other = true := fun _ => List.mem_takeWhile_imp
  conv_lhs =>
    rw [← List.takeWhile_append_dropWhile (p := solid blank)
      (l := char :: later)]
  cases behind : (char :: later).dropWhile (solid blank) with
  | nil =>
      rw [List.append_nil, List.tail_nil, words_nil]
      exact words_single blank _ some_ inside
  | cons separator rest =>
      have is_blank : blank separator = true := by
        have head := List.head?_dropWhile_not (solid blank) (char :: later)
        rw [behind] at head
        simpa [solid] using head
      exact words_append blank _ separator rest some_ inside is_blank

def overWords {σ ρ : Type} (body : σ → List α → Except ρ σ) :
    Nat → List α → σ → Except ρ σ
  | 0, _, state => .ok state
  | fuel + 1, text, state =>
      match text.dropWhile blank with
      | [] => .ok state
      | char :: later => do
          let state ← body state ((char :: later).takeWhile (solid blank))
          match (char :: later).dropWhile (solid blank) with
          | [] => .ok state
          | _ :: rest => overWords body fuel rest state

theorem overWords_eq {σ ρ : Type} (body : σ → List α → Except ρ σ)
    (fuel : Nat) (text : List α) (state : σ) (enough : text.length < fuel) :
    overWords blank body fuel text state =
      (words blank text).foldlM body state := by
  induction fuel generalizing text state with
  | zero => exact absurd enough (Nat.not_lt_zero _)
  | succ fuel ih =>
      rw [← words_dropWhile]
      have shorter := (List.dropWhile_suffix blank (l := text)).length_le
      unfold overWords
      cases start : text.dropWhile blank with
      | nil => rfl
      | cons char later =>
          rw [start] at shorter
          have is_solid : solid blank char = true := by
            have head := List.head?_dropWhile_not blank text
            rw [start] at head
            simpa [solid] using head
          rw [words_cons blank char later is_solid, List.foldlM_cons]
          dsimp only
          cases body state ((char :: later).takeWhile (solid blank)) with
          | error result => rfl
          | ok next =>
              change (match (char :: later).dropWhile (solid blank) with
                | [] => Except.ok next
                | _ :: rest => overWords blank body fuel rest next) = _
              have behind :=
                (List.dropWhile_suffix (solid blank) (l := later)).length_le
              have drops : (char :: later).dropWhile (solid blank) =
                  later.dropWhile (solid blank) :=
                List.dropWhile_cons_of_pos is_solid
              rw [drops]
              cases left : later.dropWhile (solid blank) with
              | nil => rfl
              | cons separator rest =>
                  rw [left] at behind
                  apply ih
                  rw [List.length_cons] at shorter behind
                  omega

end XR872.Words
