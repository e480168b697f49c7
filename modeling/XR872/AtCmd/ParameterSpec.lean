/-
What the loops over a parameter accept.

A parameter is the text before the first separator or line end. A loop reaches
that end exactly if it accepts every character and the text leaves room.
-/

import XR872.AtCmd.Parameter

namespace XR872.AtCmd

open BitView

def Inside (char : Byte) : Prop :=
  char ≠ AT_SEPARATOR ∧ char ≠ AT_CR ∧ char ≠ AT_LF

instance (char : Byte) : Decidable (Inside char) :=
  inferInstanceAs (Decidable (_ ∧ _))

def EndsLine (rest : List Byte) : Prop :=
  rest.head? = some AT_CR ∨ rest.head? = some AT_LF

instance (rest : List Byte) : Decidable (EndsLine rest) :=
  inferInstanceAs (Decidable (_ ∨ _))

theorem paraEnd_eq_none (char : Byte) (rest : List Byte) :
    paraEnd (char :: rest) = none ↔ Inside char := by
  simp only [paraEnd, Inside]
  by_cases separator : char = AT_SEPARATOR
  · rw [if_pos separator]
    exact iff_of_false (fun same => nomatch same) fun inside =>
      inside.1 separator
  · rw [if_neg separator]
    by_cases carriage : char = AT_CR
    · rw [if_pos carriage]
      exact iff_of_false (fun same => nomatch same) fun inside =>
        inside.2.1 carriage
    · rw [if_neg carriage]
      by_cases feed : char = AT_LF
      · rw [if_pos feed]
        exact iff_of_false (fun same => nomatch same) fun inside =>
          inside.2.2 feed
      · rw [if_neg feed]
        exact iff_of_true rfl ⟨separator, carriage, feed⟩

theorem paraEnd_separator (rest : List Byte) :
    paraEnd (AT_SEPARATOR :: rest) = some (AET_PARA, rest) := rfl

theorem paraEnd_line (rest : List Byte) (ends : EndsLine rest) :
    ∃ para, paraEnd rest = some (AET_LINE, para) := by
  rcases ends with carriage | feed
  · obtain ⟨tail, split⟩ := List.head?_eq_some_iff.mp carriage
    rw [split]
    exact ⟨_, rfl⟩
  · obtain ⟨tail, split⟩ := List.head?_eq_some_iff.mp feed
    rw [split]
    exact ⟨_, rfl⟩

theorem paraEnd_cases (rest : List Byte) (endType : Nat) (para : List Byte)
    (ends : paraEnd rest = some (endType, para)) :
    (endType = AET_PARA ∧ rest = AT_SEPARATOR :: para) ∨
      (endType = AET_LINE ∧ EndsLine rest) := by
  cases rest with
  | nil => cases ends
  | cons char tail =>
      simp only [paraEnd] at ends
      by_cases separator : char = AT_SEPARATOR
      · rw [if_pos separator] at ends
        cases ends
        exact Or.inl ⟨rfl, by rw [separator]⟩
      · rw [if_neg separator] at ends
        by_cases carriage : char = AT_CR
        · rw [if_pos carriage] at ends
          cases ends
          exact Or.inr ⟨rfl, Or.inl (by rw [carriage]; rfl)⟩
        · rw [if_neg carriage] at ends
          by_cases feed : char = AT_LF
          · rw [if_pos feed] at ends
            cases ends
            exact Or.inr ⟨rfl, Or.inr (by rw [feed]; rfl)⟩
          · rw [if_neg feed] at ends
            cases ends

section Scans

variable (accepts : Byte → Bool) (sizeLimit : Nat)

theorem scanPara_inside (strbuf text rest : List Byte)
    (inside : ∀ char ∈ text, Inside char)
    (accepted : ∀ char ∈ text, accepts char = true)
    (room : strbuf.length + text.length ≤ sizeLimit) :
    scanPara accepts sizeLimit strbuf (text ++ rest) =
      scanPara accepts sizeLimit (strbuf ++ text) rest := by
  induction text generalizing strbuf with
  | nil => rw [List.nil_append, List.append_nil]
  | cons char text ih =>
      have here := (paraEnd_eq_none char (text ++ rest)).mpr
        (inside char List.mem_cons_self)
      rw [List.length_cons] at room
      rw [List.cons_append, scanPara, if_pos (by omega), here]
      simp only [if_pos (accepted char List.mem_cons_self)]
      rw [ih (strbuf ++ [char])
        (fun other member => inside other (List.mem_cons_of_mem _ member))
        (fun other member => accepted other (List.mem_cons_of_mem _ member))
        (by rw [List.length_append, List.length_singleton]; omega),
        List.append_assoc, List.singleton_append]

theorem scanPara_end (strbuf rest : List Byte) (endType : Nat)
    (para : List Byte) (ends : paraEnd rest = some (endType, para))
    (room : strbuf.length < sizeLimit) :
    scanPara accepts sizeLimit strbuf rest = { strbuf, endType, para } := by
  cases rest with
  | nil => cases ends
  | cons char tail => simp only [scanPara, if_pos room, ends]

theorem scanPara_refused (strbuf rest : List Byte) (char : Byte)
    (inside : Inside char) (refused : accepts char = false) :
    (scanPara accepts sizeLimit strbuf (char :: rest)).endType = 0 := by
  have here := (paraEnd_eq_none char rest).mpr inside
  by_cases room : strbuf.length < sizeLimit
  · simp only [scanPara, if_pos room, here, refused, Bool.false_eq_true, if_false]
  · simp only [scanPara, if_neg room]

theorem scanPara_split (strbuf line : List Byte)
    (seen : (scanPara accepts sizeLimit strbuf line).endType ≠ 0) :
    ∃ text rest, line = text ++ rest ∧ (∀ char ∈ text, Inside char) ∧
      paraEnd rest =
        some ((scanPara accepts sizeLimit strbuf line).endType,
          (scanPara accepts sizeLimit strbuf line).para) ∧
      (scanPara accepts sizeLimit strbuf line).strbuf = strbuf ++ text ∧
      (strbuf ++ text).length < sizeLimit := by
  induction line generalizing strbuf with
  | nil => exact absurd rfl seen
  | cons char rest ih =>
      by_cases room : strbuf.length < sizeLimit
      · cases ends : paraEnd (char :: rest) with
        | some found =>
            have here := scanPara_end accepts sizeLimit strbuf _ found.1 found.2
              ends room
            refine ⟨[], char :: rest, rfl, ?_, ?_, ?_, ?_⟩
            · intro other member
              cases member
            · rw [here]
              exact ends
            · rw [here, List.append_nil]
            · rw [List.append_nil]
              exact room
        | none =>
            cases taken : accepts char with
            | false =>
                exact absurd (scanPara_refused accepts sizeLimit strbuf rest char
                  ((paraEnd_eq_none char rest).mp ends) taken) seen
            | true =>
                have step : scanPara accepts sizeLimit strbuf (char :: rest) =
                    scanPara accepts sizeLimit (strbuf ++ [char]) rest := by
                  simp only [scanPara, if_pos room, ends, taken, if_true]
                rw [step] at seen ⊢
                obtain ⟨text, tail, split, inside, stops, kept, short⟩ :=
                  ih (strbuf ++ [char]) seen
                rw [List.append_assoc] at kept short
                refine ⟨char :: text, tail, by rw [split]; rfl, ?_, stops, kept,
                  short⟩
                intro other member
                rcases List.mem_cons.mp member with same | later
                · rw [same]
                  exact (paraEnd_eq_none char rest).mp ends
                · exact inside other later
      · simp only [scanPara, if_neg room] at seen
        exact absurd rfl seen

end Scans

/-! ### Texts -/

structure IsText (text : List Byte) : Prop where
  inside : ∀ char ∈ text, Inside char
  some_ : 0 < text.length
  short : text.length < AT_PARA_MAX_SIZE

theorem atGetParameters_single (descriptor : AtParaDescriptor)
    (line : List Byte) :
    atGetParameters [descriptor] line =
      match (getPara descriptor.pt descriptor.option line).stored with
      | none =>
          (.paraError, [], (getPara descriptor.pt descriptor.option line).para)
      | some value =>
          (.ok, [value],
            (getPara descriptor.pt descriptor.option line).para) := by
  unfold atGetParameters
  cases getPara descriptor.pt descriptor.option line with
  | mk stored lineOver para =>
      cases stored with
      | none => rfl
      | some value => cases lineOver <;> rfl

/-- A text parameter whose limit is 64 and whose end is of the type asked for. -/
theorem getTextPara_text (text rest : List Byte) (opt endType : Nat)
    (para : List Byte) (isText : IsText text)
    (ends : paraEnd rest = some (endType, para))
    (asked : endType &&& opt ≠ 0) (limit : SIZE_LIMIT opt = AT_PARA_MAX_SIZE) :
    (getTextPara (text ++ rest) opt).stored = some text ∧
      (getTextPara (text ++ rest) opt).para = para := by
  have scanned : scanPara (fun _ => true) (SIZE_LIMIT opt) [] (text ++ rest) =
      { strbuf := text, endType, para } := by
    rw [scanPara_inside _ _ _ _ _ isText.inside (fun _ _ => rfl)
      (by rw [limit]; exact Nat.le_of_lt (by simpa using isText.short)),
      List.nil_append]
    exact scanPara_end _ _ _ _ _ _ ends (by rw [limit]; exact isText.short)
  unfold getTextPara
  simp only [scanned]
  refine ⟨?_, trivial⟩
  rw [limit]
  exact if_pos ⟨asked, isText.some_, isText.short⟩

theorem getTextPara_split (line : List Byte) (opt : Nat) (text : List Byte)
    (limit : SIZE_LIMIT opt = AT_PARA_MAX_SIZE)
    (stored : (getTextPara line opt).stored = some text) :
    ∃ rest endType, line = text ++ rest ∧ IsText text ∧
      endType &&& opt ≠ 0 ∧
      paraEnd rest = some (endType, (getTextPara line opt).para) := by
  unfold getTextPara at stored ⊢
  simp only at stored ⊢
  split at stored
  · rename_i accepted
    obtain ⟨asked, filled, room⟩ := accepted
    have seen : (scanPara (fun _ => true) (SIZE_LIMIT opt) [] line).endType ≠
        0 := by
      intro nothing
      rw [nothing, Nat.zero_and] at asked
      exact asked rfl
    obtain ⟨kept, rest, split, inside, ends, same, short⟩ :=
      scanPara_split _ _ _ _ seen
    rw [List.nil_append] at same
    have text_eq := Option.some.inj stored
    rw [same] at text_eq filled room
    rw [← text_eq]
    exact ⟨rest, _, split, ⟨inside, filled, by rw [← limit]; exact room⟩, asked,
      ends⟩
  · cases stored

end XR872.AtCmd
