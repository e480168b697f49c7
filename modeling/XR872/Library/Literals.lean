/-
Integer literals and how far they are read.

A literal has a sign, a prefix that names its base, and digits. A reader that
takes the longest one reaches the end of a text exactly if the text is one.
-/

import Mathlib

namespace XR872.Literals

/-! ### Digits -/

def isSpace (char : Char) : Bool :=
  decide (char.toNat = 32 ∨ 9 ≤ char.toNat ∧ char.toNat ≤ 13)

def digitValue (char : Char) : Nat :=
  if char.toNat ≤ 57 then char.toNat - 48
  else if char.toNat ≤ 70 then char.toNat - 55
  else char.toNat - 87

def isHexDigit (char : Char) : Bool :=
  decide (48 ≤ char.toNat ∧ char.toNat ≤ 57 ∨
    65 ≤ char.toNat ∧ char.toNat ≤ 70 ∨ 97 ≤ char.toNat ∧ char.toNat ≤ 102)

def isDigit (base : Nat) (char : Char) : Bool :=
  isHexDigit char && decide (digitValue char < base)

def numeral (base : Nat) (digits : List Char) : Nat :=
  digits.foldl (fun value char => value * base + digitValue char) 0

/-! ### Literals -/

inductive Unsigned : List Char → Nat → Prop where
  | decimal (digits : List Char) (some_ : digits ≠ [])
      (all : ∀ char ∈ digits, isDigit 10 char = true)
      (leading : digits.head? ≠ some '0') :
      Unsigned digits (numeral 10 digits)
  | octal (digits : List Char) (all : ∀ char ∈ digits, isDigit 8 char = true) :
      Unsigned ('0' :: digits) (numeral 8 digits)
  | hexadecimal (mark : Char) (marks : mark = 'x' ∨ mark = 'X')
      (digits : List Char) (some_ : digits ≠ [])
      (all : ∀ char ∈ digits, isDigit 16 char = true) :
      Unsigned ('0' :: mark :: digits) (numeral 16 digits)

inductive Signed : List Char → Int → Prop where
  | bare (digits : List Char) (value : Nat) (unsigned : Unsigned digits value) :
      Signed digits value
  | plus (digits : List Char) (value : Nat) (unsigned : Unsigned digits value) :
      Signed ('+' :: digits) value
  | minus (digits : List Char) (value : Nat)
      (unsigned : Unsigned digits value) : Signed ('-' :: digits) (-value)

def Denotes (text : List Char) (value : Int) : Prop :=
  ∃ white literal, text = white ++ literal ∧
    (∀ char ∈ white, isSpace char = true) ∧ Signed literal value

/-! ### The reader -/

def baseOf (text : List Char) : Nat × List Char :=
  if text.head? = some '0' then
    if (text.tail.head? = some 'x' ∨ text.tail.head? = some 'X') ∧
        (text.drop 2).head?.any (isDigit 16) = true then
      (16, text.drop 2)
    else (8, text)
  else (10, text)

def scanUnsigned (text : List Char) : Option (Nat × List Char) :=
  let (base, digits) := baseOf text
  match digits.takeWhile (isDigit base) with
  | [] => none
  | digit :: later =>
      some (numeral base (digit :: later), digits.dropWhile (isDigit base))

def scanSigned (text : List Char) : Option (Int × List Char) :=
  if text.head? = some '-' then
    (scanUnsigned text.tail).map fun (value, rest) => (-value, rest)
  else if text.head? = some '+' then
    (scanUnsigned text.tail).map fun (value, rest) => (value, rest)
  else (scanUnsigned text).map fun (value, rest) => (value, rest)

def scan (text : List Char) : Option (Int × List Char) :=
  scanSigned (text.dropWhile isSpace)

/-- What is too large or too small is cut off there. Without a literal the end
is the start. -/
def strtol (least most : Int) (text : List Char) : Int × List Char :=
  match scan text with
  | none => (0, text)
  | some (value, rest) => (max least (min value most), rest)

/-! ### It reads literals -/

theorem takeWhile_all {p : Char → Bool} {text : List Char}
    (ends : text.dropWhile p = []) : text.takeWhile p = text := by
  have whole := List.takeWhile_append_dropWhile (p := p) (l := text)
  rw [ends, List.append_nil] at whole
  exact whole

theorem numeral_zero (base : Nat) (digits : List Char) :
    numeral base ('0' :: digits) = numeral base digits := by
  unfold numeral
  rw [List.foldl_cons, Nat.zero_mul, Nat.zero_add]
  rfl

/-- The reader gets to the end if there are only digits behind the prefix. -/
theorem scanUnsigned_iff_all (text : List Char) (value : Nat) :
    scanUnsigned text = some (value, []) ↔
      (baseOf text).2 ≠ [] ∧
        (∀ char ∈ (baseOf text).2, isDigit (baseOf text).1 char = true) ∧
        numeral (baseOf text).1 (baseOf text).2 = value := by
  unfold scanUnsigned
  obtain ⟨base, digits⟩ := baseOf text
  dsimp only
  constructor
  · intro scanned
    cases taken : digits.takeWhile (isDigit base) with
    | nil =>
        rw [taken] at scanned
        cases scanned
    | cons digit later =>
        rw [taken] at scanned
        obtain ⟨same, ends⟩ := Prod.mk.inj (Option.some.inj scanned)
        have whole := takeWhile_all ends
        rw [← taken, whole] at same
        refine ⟨?_, List.dropWhile_eq_nil_iff.mp ends, same⟩
        rintro rfl
        cases taken
  · rintro ⟨some_, all, same⟩
    have ends := List.dropWhile_eq_nil_iff.mpr all
    rw [takeWhile_all ends, ends]
    cases digits with
    | nil => exact absurd rfl some_
    | cons digit later =>
        dsimp only
        rw [same]

theorem scanUnsigned_iff (text : List Char) (value : Nat) :
    scanUnsigned text = some (value, []) ↔ Unsigned text value := by
  rw [scanUnsigned_iff_all]
  constructor
  · rintro ⟨some_, all, same⟩
    unfold baseOf at some_ all same
    by_cases zero : text.head? = some '0'
    · rw [if_pos zero] at some_ all same
      obtain ⟨later, rfl⟩ := List.head?_eq_some_iff.mp zero
      by_cases hexadecimal :
          ((('0' :: later).tail.head? = some 'x' ∨
              ('0' :: later).tail.head? = some 'X') ∧
            (('0' :: later).drop 2).head?.any (isDigit 16) = true)
      · rw [if_pos hexadecimal] at some_ all same
        have marked : ∃ mark digits, later = mark :: digits ∧
            (mark = 'x' ∨ mark = 'X') := by
          rcases hexadecimal.1 with small | large
          · obtain ⟨digits, rfl⟩ := List.head?_eq_some_iff.mp small
            exact ⟨_, digits, rfl, Or.inl rfl⟩
          · obtain ⟨digits, rfl⟩ := List.head?_eq_some_iff.mp large
            exact ⟨_, digits, rfl, Or.inr rfl⟩
        obtain ⟨mark, digits, rfl, marks⟩ := marked
        rw [← same]
        exact Unsigned.hexadecimal mark marks digits some_ all
      · rw [if_neg hexadecimal] at all same
        rw [← same]
        dsimp only
        rw [numeral_zero]
        exact Unsigned.octal later
          fun char member => all char (List.mem_cons_of_mem _ member)
    · rw [if_neg zero] at some_ all same
      rw [← same]
      exact Unsigned.decimal text some_ all zero
  · intro unsigned
    cases unsigned with
    | decimal _ some_ all leading =>
        unfold baseOf
        rw [if_neg leading]
        exact ⟨some_, all, rfl⟩
    | octal digits all =>
        have octal : baseOf ('0' :: digits) = (8, '0' :: digits) := by
          unfold baseOf
          rw [if_pos List.head?_cons, if_neg ?_]
          rintro ⟨small | large, _⟩
          · obtain ⟨later, same⟩ := List.head?_eq_some_iff.mp small
            have digit := all 'x' (by
              change 'x' ∈ ('0' :: digits).tail
              rw [same]
              exact List.mem_cons_self)
            exact absurd digit (by decide)
          · obtain ⟨later, same⟩ := List.head?_eq_some_iff.mp large
            have digit := all 'X' (by
              change 'X' ∈ ('0' :: digits).tail
              rw [same]
              exact List.mem_cons_self)
            exact absurd digit (by decide)
        rw [octal]
        refine ⟨List.cons_ne_nil _ _, ?_, numeral_zero 8 digits⟩
        intro char member
        rcases List.mem_cons.mp member with rfl | later
        · have zero : isDigit 8 '0' = true := by decide
          exact zero
        · exact all char later
    | hexadecimal mark marks digits some_ all =>
        have hexadecimal :
            ((('0' :: mark :: digits).tail.head? = some 'x' ∨
                ('0' :: mark :: digits).tail.head? = some 'X') ∧
              (('0' :: mark :: digits).drop 2).head?.any (isDigit 16) =
                true) := by
          refine ⟨marks.imp (congrArg some) (congrArg some), ?_⟩
          cases digits with
          | nil => exact absurd rfl some_
          | cons digit later => exact all digit List.mem_cons_self
        unfold baseOf
        rw [if_pos List.head?_cons, if_pos hexadecimal]
        exact ⟨some_, all, rfl⟩

theorem Unsigned.head {text : List Char} {value : Nat}
    (unsigned : Unsigned text value) :
    ∃ char later, text = char :: later ∧ isHexDigit char = true := by
  cases unsigned with
  | decimal _ some_ all _ =>
      obtain ⟨char, later, rfl⟩ := List.exists_cons_of_ne_nil some_
      have digit := all char List.mem_cons_self
      unfold isDigit at digit
      rw [Bool.and_eq_true] at digit
      exact ⟨char, later, rfl, digit.1⟩
  | octal digits _ => exact ⟨'0', digits, rfl, by decide⟩
  | hexadecimal mark _ digits _ _ => exact ⟨'0', mark :: digits, rfl, by decide⟩

theorem scanSigned_iff (text : List Char) (value : Int) :
    scanSigned text = some (value, []) ↔ Signed text value := by
  unfold scanSigned
  constructor
  · intro scanned
    by_cases minus : text.head? = some '-'
    · rw [if_pos minus] at scanned
      obtain ⟨later, rfl⟩ := List.head?_eq_some_iff.mp minus
      obtain ⟨⟨natural, rest⟩, unsigned, same⟩ :=
        Option.map_eq_some_iff.mp scanned
      obtain ⟨rfl, rfl⟩ := Prod.mk.inj same
      exact Signed.minus later natural ((scanUnsigned_iff _ _).mp unsigned)
    · rw [if_neg minus] at scanned
      by_cases plus : text.head? = some '+'
      · rw [if_pos plus] at scanned
        obtain ⟨later, rfl⟩ := List.head?_eq_some_iff.mp plus
        obtain ⟨⟨natural, rest⟩, unsigned, same⟩ :=
          Option.map_eq_some_iff.mp scanned
        obtain ⟨rfl, rfl⟩ := Prod.mk.inj same
        exact Signed.plus later natural ((scanUnsigned_iff _ _).mp unsigned)
      · rw [if_neg plus] at scanned
        obtain ⟨⟨natural, rest⟩, unsigned, same⟩ :=
          Option.map_eq_some_iff.mp scanned
        obtain ⟨rfl, rfl⟩ := Prod.mk.inj same
        exact Signed.bare text natural ((scanUnsigned_iff _ _).mp unsigned)
  · intro signed
    cases signed with
    | bare _ natural unsigned =>
        obtain ⟨char, later, rfl, digit⟩ := unsigned.head
        have minus : ('-' : Char) ≠ char := by
          rintro rfl
          exact absurd digit (by decide)
        have plus : ('+' : Char) ≠ char := by
          rintro rfl
          exact absurd digit (by decide)
        rw [List.head?_cons, if_neg fun same => minus (Option.some.inj same).symm,
          if_neg fun same => plus (Option.some.inj same).symm,
          (scanUnsigned_iff _ _).mpr unsigned]
        rfl
    | plus digits natural unsigned =>
        rw [List.head?_cons, if_neg (by decide), if_pos rfl, List.tail_cons,
          (scanUnsigned_iff _ _).mpr unsigned]
        rfl
    | minus digits natural unsigned =>
        rw [List.head?_cons, if_pos rfl, List.tail_cons,
          (scanUnsigned_iff _ _).mpr unsigned]
        rfl

theorem Signed.head {text : List Char} {value : Int}
    (signed : Signed text value) :
    ∃ char later, text = char :: later ∧ isSpace char = false := by
  cases signed with
  | bare _ _ unsigned =>
      obtain ⟨char, later, rfl, digit⟩ := unsigned.head
      refine ⟨char, later, rfl, ?_⟩
      unfold isHexDigit at digit
      unfold isSpace
      rw [decide_eq_true_iff] at digit
      rw [decide_eq_false_iff_not]
      omega
  | plus digits _ _ => exact ⟨'+', digits, rfl, by decide⟩
  | minus digits _ _ => exact ⟨'-', digits, rfl, by decide⟩

theorem scan_iff (text : List Char) (value : Int) :
    scan text = some (value, []) ↔ Denotes text value := by
  unfold scan
  rw [scanSigned_iff]
  constructor
  · intro signed
    exact ⟨text.takeWhile isSpace, text.dropWhile isSpace,
      List.takeWhile_append_dropWhile.symm,
      fun _ => List.mem_takeWhile_imp, signed⟩
  · rintro ⟨white, literal, rfl, all, signed⟩
    obtain ⟨char, later, rfl, visible⟩ := signed.head
    rw [List.dropWhile_append_of_pos all,
      List.dropWhile_cons_of_neg (by rw [visible]; exact Bool.false_ne_true)]
    exact signed

theorem Denotes.unique {text : List Char} {first second : Int}
    (left : Denotes text first) (right : Denotes text second) :
    first = second := by
  rw [← scan_iff] at left right
  exact (Prod.mk.inj (Option.some.inj (left.symm.trans right))).1

theorem not_denotes_nil (value : Int) : ¬ Denotes [] value := by
  intro denotes
  rw [← scan_iff] at denotes
  cases denotes

theorem strtol_end (least most : Int) (text : List Char) :
    (strtol least most text).2 = [] ↔
      text = [] ∨ ∃ value, Denotes text value := by
  unfold strtol
  cases scanned : scan text with
  | none =>
      constructor
      · exact Or.inl
      · rintro (empty | ⟨value, denotes⟩)
        · exact empty
        · rw [← scan_iff, scanned] at denotes
          cases denotes
  | some found =>
      obtain ⟨value, rest⟩ := found
      constructor
      · rintro rfl
        exact Or.inr ⟨value, (scan_iff _ _).mp scanned⟩
      · rintro (rfl | ⟨other, denotes⟩)
        · cases scanned
        · rw [← scan_iff, scanned] at denotes
          exact (Prod.mk.inj (Option.some.inj denotes)).2

theorem strtol_of_denotes (least most : Int) (text : List Char) (value : Int)
    (denotes : Denotes text value) :
    strtol least most text = (max least (min value most), []) := by
  rw [← scan_iff] at denotes
  unfold strtol
  rw [denotes]

end XR872.Literals
