/-
Lines of a stream, ended by one of two marks or by both in turn.

A line that has begun may be given as a part of its content. What is selected
from the lines are the contents that are not blank and fit a limit together
with their ending.
-/

import Mathlib

namespace XR872.Lines

variable {α : Type}

structure Line (α : Type) where
  content : List α
  ending : List α
deriving DecidableEq, Repr

def Line.Selected (limit : Nat) (line : Line α) : Prop :=
  line.content ≠ [] ∧ line.content.length + line.ending.length ≤ limit

instance (limit : Nat) (line : Line α) : Decidable (line.Selected limit) :=
  inferInstanceAs (Decidable (_ ∧ _))

def select (limit : Nat) (lines : List (Line α)) : List (List α) :=
  (lines.filter fun line => line.Selected limit).map Line.content

/-! ### Selected lines -/

def kept (part : List α) : List (List α) := if part = [] then [] else [part]

theorem select_cons (limit : Nat) (line : Line α) (rest : List (Line α)) :
    select limit (line :: rest) =
      select limit [line] ++ select limit rest := by
  unfold select
  rw [← List.map_append, ← List.filter_append, List.singleton_append]

theorem select_selected (limit : Nat) (line : Line α)
    (selected : line.Selected limit) : select limit [line] = [line.content] := by
  unfold select
  rw [List.filter_cons, if_pos (decide_eq_true selected)]
  rfl

theorem select_refused (limit : Nat) (line : Line α)
    (refused : ¬ line.Selected limit) : select limit [line] = [] := by
  unfold select
  rw [List.filter_cons, if_neg (by rw [decide_eq_true_iff]; exact refused)]
  rfl

theorem select_fits (limit : Nat) (line : Line α)
    (fits : line.content.length + line.ending.length ≤ limit) :
    select limit [line] = kept line.content := by
  unfold kept
  by_cases blank : line.content = []
  · rw [if_pos blank]
    exact select_refused limit line fun selected => selected.1 blank
  · rw [if_neg blank]
    exact select_selected limit line ⟨blank, fits⟩

theorem select_long (limit : Nat) (line : Line α)
    (long : limit < line.content.length + line.ending.length) :
    select limit [line] = [] :=
  select_refused limit line fun selected => absurd selected.2 (by omega)

theorem select_blank (limit : Nat) (line : Line α) (blank : line.content = []) :
    select limit [line] = [] :=
  select_refused limit line fun selected => selected.1 blank

/-! ### Lines of a stream -/

variable [DecidableEq α]

/-- Neither mark. -/
def Plain (cr lf item : α) : Prop := item ≠ cr ∧ item ≠ lf

instance (cr lf item : α) : Decidable (Plain cr lf item) :=
  inferInstanceAs (Decidable (_ ∧ _))

/-- The complete lines, the first of which has begun with `part`. -/
def linesFrom (cr lf : α) : List α → List α → List (Line α)
  | _, [] => []
  | part, [last] =>
      if Plain cr lf last then []
      else [{ content := part, ending := [last] }]
  | part, first :: second :: rest =>
      if Plain cr lf first then linesFrom cr lf (part ++ [first]) (second :: rest)
      else if first = cr ∧ second = lf then
        { content := part, ending := [first, second] } :: linesFrom cr lf [] rest
      else
        { content := part, ending := [first] } ::
          linesFrom cr lf [] (second :: rest)

variable (cr lf : α)

theorem linesFrom_plain (part rest : List α) (item : α)
    (plain : Plain cr lf item) :
    linesFrom cr lf part (item :: rest) =
      linesFrom cr lf (part ++ [item]) rest := by
  cases rest with
  | nil => exact if_pos plain
  | cons second rest => exact if_pos plain

theorem linesFrom_lf (part rest : List α) (apart : cr ≠ lf) :
    linesFrom cr lf part (lf :: rest) =
      { content := part, ending := [lf] } :: linesFrom cr lf [] rest := by
  have mark : ¬ Plain cr lf lf := fun plain => plain.2 rfl
  cases rest with
  | nil => exact if_neg mark
  | cons second rest =>
      have single : ¬ (lf = cr ∧ second = lf) := fun both => apart both.1.symm
      exact (if_neg mark).trans (if_neg single)

theorem linesFrom_cr_lf (part rest : List α) :
    linesFrom cr lf part (cr :: lf :: rest) =
      { content := part, ending := [cr, lf] } :: linesFrom cr lf [] rest := by
  have mark : ¬ Plain cr lf cr := fun plain => plain.1 rfl
  exact (if_neg mark).trans (if_pos ⟨rfl, rfl⟩)

theorem linesFrom_cr (part rest : List α) (alone : rest.head? ≠ some lf) :
    linesFrom cr lf part (cr :: rest) =
      { content := part, ending := [cr] } :: linesFrom cr lf [] rest := by
  have mark : ¬ Plain cr lf cr := fun plain => plain.1 rfl
  cases rest with
  | nil => exact if_neg mark
  | cons second rest =>
      have single : ¬ (cr = cr ∧ second = lf) := by
        rintro ⟨_, same⟩
        apply alone
        rw [same]
        rfl
      exact (if_neg mark).trans (if_neg single)

def Ends (last : Option α) (item : α) : Prop :=
  ¬ Plain cr lf item ∧ ¬ (item = lf ∧ last = some cr)

instance (last : Option α) (item : α) : Decidable (Ends cr lf last item) :=
  inferInstanceAs (Decidable (_ ∧ _))

theorem length_linesFrom_singleton (part : List α) (item : α)
    (last : Option α) (single : last ≠ some cr) :
    (linesFrom cr lf part [item]).length =
      if Ends cr lf last item then 1 else 0 := by
  by_cases plain : Plain cr lf item
  · rw [if_neg fun ends => ends.1 plain]
    exact congrArg List.length (if_pos plain)
  · rw [if_pos ⟨plain, fun pair => single pair.2⟩]
    exact congrArg List.length (if_neg plain)

/-- One more item ends a line if it is a mark, and not the second one of a
pair. -/
theorem length_linesFrom_concat (part stream : List α) (item : α)
    (apart : cr ≠ lf) :
    (linesFrom cr lf part (stream ++ [item])).length =
      (linesFrom cr lf part stream).length +
        if Ends cr lf stream.getLast? item then 1 else 0 := by
  fun_induction linesFrom cr lf part stream with
  | case1 part =>
      rw [List.length_nil, Nat.zero_add]
      exact length_linesFrom_singleton cr lf part item _ (by intro none; cases none)
  | case2 part last plain =>
      rw [List.length_nil, Nat.zero_add]
      change (linesFrom cr lf part (last :: [item])).length = _
      rw [linesFrom_plain cr lf part [item] last plain]
      apply length_linesFrom_singleton
      intro same
      exact plain.1 (Option.some.inj same)
  | case3 part last mark =>
      change (linesFrom cr lf part (last :: [item])).length = 1 + _
      by_cases feed : last = lf
      · rw [feed, linesFrom_lf cr lf part [item] apart, List.length_cons,
          Nat.add_comm, length_linesFrom_singleton cr lf [] item (some lf)]
        · rfl
        · intro same
          exact apart (Option.some.inj same).symm
      · have carriage : last = cr := by
          by_contra other
          exact mark ⟨other, feed⟩
        rw [carriage]
        by_cases pair : item = lf
        · rw [pair, linesFrom_cr_lf, if_neg fun ends => ends.2 ⟨rfl, rfl⟩]
          rfl
        · rw [linesFrom_cr cr lf part [item]
            (fun same => pair (Option.some.inj same)), List.length_cons,
            Nat.add_comm, length_linesFrom_singleton cr lf [] item none
              (by intro none; cases none)]
          congr 1
          have same : Ends cr lf none item ↔ Ends cr lf (some cr) item :=
            and_congr_right fun _ => iff_of_true (fun both => pair both.1)
              (fun both => pair both.1)
          exact if_congr same rfl rfl
  | case4 part first second rest plain ih =>
      change (linesFrom cr lf part (first :: (second :: rest ++ [item]))).length
        = _
      rw [linesFrom_plain cr lf part _ first plain, ih, List.getLast?_cons_cons]
  | case5 part first second rest mark pair ih =>
      obtain ⟨rfl, rfl⟩ := pair
      change (linesFrom first second part
        (first :: second :: (rest ++ [item]))).length = _
      rw [linesFrom_cr_lf, List.length_cons, ih, List.length_cons,
        Nat.add_right_comm]
      congr 1
      cases rest with
      | nil =>
          have same : Ends first second none item ↔
              Ends first second (some second) item :=
            and_congr_right fun _ => iff_of_true
              (fun both => by cases both.2)
              (fun both => apart (Option.some.inj both.2).symm)
          exact if_congr same rfl rfl
      | cons third rest => rw [List.getLast?_cons_cons, List.getLast?_cons_cons]
  | case6 part first second rest mark pair ih =>
      change (linesFrom cr lf part (first :: (second :: rest ++ [item]))).length
        = _
      rw [List.getLast?_cons_cons, List.length_cons, Nat.add_right_comm, ← ih]
      by_cases feed : first = lf
      · rw [feed, linesFrom_lf cr lf part _ apart]
        rfl
      · have carriage : first = cr := by
          by_contra other
          exact mark ⟨other, feed⟩
        have alone : (second :: rest ++ [item]).head? ≠ some lf := by
          intro same
          exact pair ⟨carriage, Option.some.inj same⟩
        rw [carriage, linesFrom_cr cr lf part _ alone]
        rfl

def extendFirst (front : List α) : List (Line α) → List (Line α)
  | [] => []
  | line :: rest => { line with content := front ++ line.content } :: rest

theorem linesFrom_append (front part stream : List α) (apart : cr ≠ lf) :
    linesFrom cr lf (front ++ part) stream =
      extendFirst front (linesFrom cr lf part stream) := by
  induction stream generalizing part with
  | nil => rfl
  | cons item rest ih =>
      by_cases plain : Plain cr lf item
      · rw [linesFrom_plain cr lf _ rest item plain,
          linesFrom_plain cr lf _ rest item plain, List.append_assoc, ih]
      · by_cases feed : item = lf
        · rw [feed, linesFrom_lf cr lf _ rest apart,
            linesFrom_lf cr lf _ rest apart]
          rfl
        · have carriage : item = cr := by
            by_contra other
            exact plain ⟨other, feed⟩
          rw [carriage]
          by_cases follows : rest.head? = some lf
          · obtain ⟨tail, split⟩ := List.head?_eq_some_iff.mp follows
            rw [split, linesFrom_cr_lf, linesFrom_cr_lf]
            rfl
          · rw [linesFrom_cr cr lf _ rest follows,
              linesFrom_cr cr lf _ rest follows]
            rfl

/-! ### Selected lines of a stream -/

/-- A second mark after a line that has ended only adds a blank line. -/
theorem select_lf_again (limit : Nat) (rest : List α) (apart : cr ≠ lf) :
    select limit (linesFrom cr lf [] (lf :: rest)) =
      select limit (linesFrom cr lf [] rest) := by
  rw [linesFrom_lf cr lf [] rest apart, select_cons,
    select_blank _ _ rfl, List.nil_append]

theorem select_lf (limit : Nat) (part rest : List α) (apart : cr ≠ lf)
    (fits : part.length + 1 ≤ limit) :
    select limit (linesFrom cr lf part (lf :: rest)) =
      kept part ++ select limit (linesFrom cr lf [] rest) := by
  rw [linesFrom_lf cr lf part rest apart, select_cons, select_fits _ _ fits]

theorem select_lf_long (limit : Nat) (part rest : List α) (apart : cr ≠ lf)
    (long : limit < part.length + 1) :
    select limit (linesFrom cr lf part (lf :: rest)) =
      select limit (linesFrom cr lf [] rest) := by
  rw [linesFrom_lf cr lf part rest apart, select_cons, select_long _ _ long,
    List.nil_append]

/-- A line with room for two marks is selected alike with one or two. -/
theorem select_cr (limit : Nat) (part rest : List α) (apart : cr ≠ lf)
    (fits : part.length + 2 ≤ limit) :
    select limit (linesFrom cr lf part (cr :: rest)) =
      kept part ++ select limit (linesFrom cr lf [] rest) := by
  by_cases follows : rest.head? = some lf
  · obtain ⟨tail, split⟩ := List.head?_eq_some_iff.mp follows
    rw [split, linesFrom_cr_lf, select_cons, select_fits _ _ fits,
      select_lf_again cr lf limit tail apart]
  · rw [linesFrom_cr cr lf part rest follows, select_cons,
      select_fits limit _ (Nat.le_of_succ_le fits)]

theorem select_cr_lf_long (limit : Nat) (part rest : List α) (apart : cr ≠ lf)
    (long : limit < part.length + 2) :
    select limit (linesFrom cr lf part (cr :: lf :: rest)) =
      select limit (linesFrom cr lf [] (lf :: rest)) := by
  rw [linesFrom_cr_lf, select_cons, select_long _ _ long, List.nil_append,
    select_lf_again cr lf limit rest apart]

/-- With a front that fills the limit, a line is refused whatever follows: the
stream then counts as if its first line were missing. -/
theorem select_front (limit : Nat) (front stream : List α) (apart : cr ≠ lf)
    (long : limit < front.length)
    (refused : select limit ((linesFrom cr lf [] stream).take 1) = []) :
    select limit (linesFrom cr lf front stream) =
      select limit (linesFrom cr lf [] stream) := by
  rw [← List.append_nil front, linesFrom_append cr lf front [] stream apart]
  generalize linesFrom cr lf [] stream = lines at refused ⊢
  cases lines with
  | nil => rfl
  | cons line rest =>
      have extended : limit <
          (front ++ line.content).length + line.ending.length := by
        rw [List.length_append]
        omega
      have first : select limit [line] = [] := refused
      rw [extendFirst, select_cons, select_cons limit line, first,
        select_long limit _ extended]

end XR872.Lines
