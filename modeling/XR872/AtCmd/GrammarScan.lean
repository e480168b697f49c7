/-
Texts and integers against their grammar.

The loop that keeps the characters as they come ends at the end of the field or
says that it saw none. A text is taken exactly by its grammar; the integers are
taken up to ten digits each, which is more than a decimal number of 32 bits and
more than eight hexadecimal digits.
-/

import XR872.AtCmd.Grammar

namespace XR872.AtCmd

open BitView

/-! ### Stores -/

theorem storesOf_below_iff (scan : Scan) (last : Bool) (limit : Nat)
    (positive : 0 < limit) :
    (∀ index ∈ storesOf scan last, index < limit) ↔
      scan.strbuf.length + last.toNat ≤ limit := by
  unfold storesOf
  rw [List.forall_mem_cons, and_iff_right positive, List.forall_mem_append]
  cases last with
  | false =>
      simp only [Bool.false_eq_true, if_false, Bool.toNat_false, Nat.add_zero,
        List.mem_range]
      constructor
      · intro below
        by_contra long
        have last := below.1 (scan.strbuf.length - 1) (by omega)
        omega
      · intro short
        refine ⟨?_, nofun⟩
        intro index member
        omega
  | true =>
      simp only [if_true, Bool.toNat_true, List.mem_range, List.mem_singleton]
      constructor
      · intro below
        exact below.2 _ rfl
      · intro short
        refine ⟨?_, ?_⟩
        · intro index member
          omega
        · intro index same
          omega

/-! ### The loop -/

section Loop

variable (accepts : Byte → Bool) (sizeLimit : Nat)

theorem scanPara_length_le (strbuf line : List Byte)
    (room : strbuf.length ≤ sizeLimit) :
    (scanPara accepts sizeLimit strbuf line).strbuf.length ≤ sizeLimit := by
  induction line generalizing strbuf with
  | nil => exact room
  | cons char rest ih =>
      rw [scanPara]
      split
      · rename_i free
        cases paraEnd (char :: rest) with
        | some found => exact room
        | none =>
            dsimp only
            split
            · exact ih _ (by
                rw [List.length_append, List.length_singleton]
                exact free)
            · exact room
      · exact room

theorem scanPara_accepted (strbuf line : List Byte)
    (kept : ∀ char ∈ strbuf, accepts char = true) :
    ∀ char ∈ (scanPara accepts sizeLimit strbuf line).strbuf,
      accepts char = true := by
  induction line generalizing strbuf with
  | nil => exact kept
  | cons char rest ih =>
      rw [scanPara]
      split
      · cases paraEnd (char :: rest) with
        | some found => exact kept
        | none =>
            dsimp only
            split
            · rename_i accepted
              apply ih
              intro other member
              rcases List.mem_append.mp member with old | new
              · exact kept other old
              · rw [List.mem_singleton.mp new]
                exact accepted
            · exact kept
      · exact kept

theorem scanPara_behind (strbuf line : List Byte) :
    afterLine line <:+ (scanPara accepts sizeLimit strbuf line).para := by
  induction line generalizing strbuf with
  | nil => exact List.suffix_rfl
  | cons char rest ih =>
      rw [scanPara]
      split
      · cases ends : paraEnd (char :: rest) with
        | some found =>
            exact paraEnd_suffix (char :: rest) found.1 found.2 ends
        | none =>
            dsimp only
            split
            · rw [afterLine_cons _ _ ((paraEnd_eq_none char rest).mp ends)]
              exact ih _
            · exact afterLine_suffix (char :: rest)
      · exact afterLine_suffix (char :: rest)

/-- A field of accepted characters that leaves room is kept, with its end. -/
theorem scanPara_field (cursor : List Byte) (endType : Nat) (para : List Byte)
    (accepted : ∀ char ∈ fieldText cursor, accepts char = true)
    (room : (fieldText cursor).length < sizeLimit)
    (ends : paraEnd (fieldEnding cursor) = some (endType, para)) :
    scanPara accepts sizeLimit [] cursor =
      { strbuf := fieldText cursor, endType, para } := by
  conv_lhs => rw [← fieldText_append_fieldEnding cursor]
  rw [scanPara_inside accepts sizeLimit [] _ _ (inside_of_mem_fieldText cursor)
    accepted (by rw [List.length_nil]; omega), List.nil_append]
  exact scanPara_end accepts sizeLimit _ _ _ _ ends room

theorem scanPara_seen (cursor : List Byte)
    (seen : (scanPara accepts sizeLimit [] cursor).endType ≠ 0) :
    (scanPara accepts sizeLimit [] cursor).strbuf = fieldText cursor ∧
      (∀ char ∈ fieldText cursor, accepts char = true) ∧
      (fieldText cursor).length < sizeLimit ∧
      paraEnd (fieldEnding cursor) =
        some ((scanPara accepts sizeLimit [] cursor).endType,
          (scanPara accepts sizeLimit [] cursor).para) := by
  have accepted := scanPara_accepted accepts sizeLimit [] cursor nofun
  obtain ⟨text, rest, split, inside, ends, kept, short⟩ :=
    scanPara_split accepts sizeLimit [] cursor seen
  rw [List.nil_append] at kept short
  have field := field_append text rest _ inside ends
  rw [← split] at field
  rw [kept] at accepted ⊢
  rw [field.1, field.2]
  exact ⟨rfl, accepted, short, ends⟩

end Loop

/-! ### Texts -/

theorem getTextPara_taken (cursor : List Byte) (opt endType : Nat)
    (para : List Byte) (some_ : 1 ≤ (fieldText cursor).length)
    (short : (fieldText cursor).length < SIZE_LIMIT opt)
    (ends : paraEnd (fieldEnding cursor) = some (endType, para))
    (allowed : endType &&& opt ≠ 0) :
    getTextPara cursor opt =
      { stored := some (fieldText cursor)
        lineOver := decide (endType = AET_LINE)
        para := para } := by
  unfold getTextPara
  rw [scanPara_field _ _ cursor endType para (fun _ _ => rfl) short ends]
  dsimp only
  rw [if_pos ⟨allowed, some_, short⟩]
  rfl

theorem getTextPara_matches (cursor : List Byte) (opt : Nat)
    (text : List Byte) (stored : (getTextPara cursor opt).stored = some text) :
    ∃ value endType para, Matches .text opt cursor value endType para := by
  unfold getTextPara at stored
  dsimp only at stored
  split at stored
  · rename_i accepted
    obtain ⟨allowed, filled, room⟩ := accepted
    have seen : (scanPara (fun _ => true) (SIZE_LIMIT opt) []
        cursor).endType ≠ 0 := by
      intro nothing
      rw [nothing, Nat.zero_and] at allowed
      exact allowed rfl
    obtain ⟨kept, _, short, ends⟩ := scanPara_seen _ _ cursor seen
    rw [kept] at filled
    exact ⟨_, _, _, {
      denotes := Denotes.text _ filled short
      ends := ends
      allowed := allowed }⟩
  · cases stored

theorem text_value (limit : Nat) (text : List Byte) (value : AtValue)
    (denotes : Denotes limit .text text value) :
    1 ≤ text.length ∧ text.length < limit ∧ value = .text text := by
  cases denotes with
  | text _ some_ short => exact ⟨some_, short, rfl⟩

theorem scanText_length (sizeLimit : Nat) (strbuf line : List Byte)
    (room : strbuf.length ≤ sizeLimit) :
    (scanPara (fun _ => true) sizeLimit strbuf line).strbuf.length =
      min sizeLimit (strbuf.length + (fieldText line).length) := by
  induction line generalizing strbuf with
  | nil =>
      change strbuf.length = min sizeLimit (strbuf.length + 0)
      omega
  | cons char rest ih =>
      rw [scanPara]
      split
      · rename_i free
        cases ends : paraEnd (char :: rest) with
        | some found =>
            obtain ⟨none, _⟩ := field_of_paraEnd (char :: rest) found ends
            rw [none]
            change strbuf.length = min sizeLimit (strbuf.length + 0)
            omega
        | none =>
            have inside := (paraEnd_eq_none char rest).mp ends
            dsimp only
            rw [if_pos rfl, ih _ (by
                rw [List.length_append, List.length_singleton]
                exact free), fieldText_cons _ _ inside, List.length_append,
              List.length_singleton, List.length_cons]
            omega
      · dsimp only
        omega

/-- A text stays in `strbuf`: its limit is no larger than that, or what there
is of it leaves room. -/
def TextFits (opt : Nat) (cursor : List Byte) : Prop :=
  SIZE_LIMIT opt ≤ AT_PARA_MAX_SIZE ∨
    (fieldText cursor).length < AT_PARA_MAX_SIZE ∨
    ((fieldText cursor).length = AT_PARA_MAX_SIZE ∧
      ¬ ∃ value endType para, Matches .text opt cursor value endType para)

theorem textPromise_iff (opt : Nat) (cursor : List Byte) :
    FieldPromise .text opt cursor ↔ TextFits opt cursor := by
  have taken : ∀ value endType para,
      Matches .text opt cursor value endType para →
      getTextPara cursor opt =
        { stored := some (fieldText cursor)
          lineOver := decide (endType = AET_LINE)
          para := para } := by
    intro value endType para found
    obtain ⟨some_, short, _⟩ := text_value _ _ _ found.denotes
    exact getTextPara_taken cursor opt endType para some_ short found.ends
      found.allowed
  have stored_iff : (getTextPara cursor opt).stored.isSome = true ↔
      ∃ value endType para, Matches .text opt cursor value endType para := by
    constructor
    · intro stored
      obtain ⟨text, same⟩ := Option.isSome_iff_exists.mp stored
      exact getTextPara_matches cursor opt text same
    · rintro ⟨value, endType, para, found⟩
      rw [taken value endType para found]
      rfl
  have stores : (∀ index ∈ strbufStores .text opt cursor,
      index < AT_PARA_MAX_SIZE) ↔ TextFits opt cursor := by
    have length := scanText_length (SIZE_LIMIT opt) [] cursor (Nat.zero_le _)
    rw [List.length_nil, Nat.zero_add] at length
    unfold strbufStores TextFits
    rw [storesOf_below_iff _ _ _ (by decide), length]
    by_cases found :
        ∃ value endType para, Matches .text opt cursor value endType para
    · have isSome := stored_iff.mpr found
      obtain ⟨value, endType, para, matched⟩ := found
      obtain ⟨_, short, _⟩ := text_value _ _ _ matched.denotes
      rw [isSome, Bool.toNat_true]
      constructor
      · intro fits
        omega
      · rintro (small | few | ⟨_, none⟩)
        · omega
        · omega
        · exact absurd ⟨value, endType, para, matched⟩ none
    · have isNone : (getTextPara cursor opt).stored.isSome = false := by
        cases seen : (getTextPara cursor opt).stored.isSome with
        | false => rfl
        | true => exact absurd (stored_iff.mp seen) found
      rw [isNone, Bool.toNat_false, Nat.add_zero]
      constructor
      · intro fits
        rcases Nat.lt_trichotomy (fieldText cursor).length AT_PARA_MAX_SIZE with
          few | full | many
        · exact Or.inr (Or.inl few)
        · exact Or.inr (Or.inr ⟨full, found⟩)
        · left
          omega
      · rintro (small | few | ⟨full, _⟩)
        · omega
        · omega
        · omega
  constructor
  · intro promise
    exact stores.mp promise.stores
  · intro fits
    exact {
      taken := by
        intro value endType para found
        obtain ⟨_, _, same⟩ := text_value _ _ _ found.denotes
        unfold getPara
        dsimp only
        rw [taken value endType para found, same]
        rfl
      refused := by
        intro none
        unfold getPara Para.map
        dsimp only
        cases stored : (getTextPara cursor opt).stored with
        | none => rfl
        | some text =>
            exact absurd (getTextPara_matches cursor opt text stored) none
      behind := scanPara_behind _ _ [] cursor
      stores := stores.mpr fits }

/-! ### Integers -/

def Allowed (opt : Nat) (cursor : List Byte) : Prop :=
  ∃ endType para, paraEnd (fieldEnding cursor) = some (endType, para) ∧
    endType &&& opt ≠ 0

section Integers

variable (accepts : Byte → Bool) (number : List Byte → Nat)

theorem getIntPara_taken (cursor : List Byte) (opt endType : Nat)
    (para : List Byte)
    (accepted : ∀ char ∈ fieldText cursor, accepts char = true)
    (some_ : 1 ≤ (fieldText cursor).length)
    (short : (fieldText cursor).length ≤ 10)
    (ends : paraEnd (fieldEnding cursor) = some (endType, para))
    (allowed : endType &&& opt ≠ 0) :
    getIntPara accepts number cursor opt =
      { stored := some (BitVec.ofNat 32 (number (fieldText cursor)))
        lineOver := decide (endType = AET_LINE)
        para := para } := by
  unfold getIntPara
  rw [scanPara_field accepts 11 cursor endType para accepted (by omega) ends]
  dsimp only
  rw [if_pos ⟨allowed, some_, by omega⟩]
  rfl

theorem getIntPara_stored (cursor : List Byte) (opt : Nat) (value : BitVec 32)
    (stored : (getIntPara accepts number cursor opt).stored = some value) :
    (∀ char ∈ fieldText cursor, accepts char = true) ∧
      1 ≤ (fieldText cursor).length ∧ (fieldText cursor).length ≤ 10 ∧
      Allowed opt cursor := by
  unfold getIntPara at stored
  dsimp only at stored
  split at stored
  · rename_i taken
    obtain ⟨allowed, filled, room⟩ := taken
    have seen : (scanPara accepts 11 [] cursor).endType ≠ 0 := by
      intro nothing
      rw [nothing, Nat.zero_and] at allowed
      exact allowed rfl
    obtain ⟨kept, accepted, _, ends⟩ := scanPara_seen accepts 11 cursor seen
    rw [kept] at filled room
    exact ⟨accepted, filled, by omega, _, _, ends, allowed⟩
  · cases stored

/-- Accepted characters that are no number of the type, in front of an end that
is allowed. -/
def Overlong (good : List Byte → Prop) (opt : Nat) (cursor : List Byte) : Prop :=
  (∀ char ∈ fieldText cursor, accepts char = true) ∧
    1 ≤ (fieldText cursor).length ∧ (fieldText cursor).length ≤ 10 ∧
    ¬ good (fieldText cursor) ∧ Allowed opt cursor

structure IntType (pt : AtParaType) (member : BitVec 32 → AtValue)
    (good : List Byte → Prop) : Prop where
  get : ∀ opt cursor,
    getPara pt opt cursor = (getIntPara accepts number cursor opt).map member
  stores : ∀ opt cursor, strbufStores pt opt cursor =
    storesOf (scanPara accepts 11 [] cursor)
      (getIntPara accepts number cursor opt).stored.isSome
  denotes : ∀ limit text value, Denotes limit pt text value ↔
    (∀ char ∈ text, accepts char = true) ∧ 1 ≤ text.length ∧
      text.length ≤ 10 ∧ good text ∧
      value = member (BitVec.ofNat 32 (number text))

variable {accepts number}

/-- An integer field is taken by its grammar exactly if its digits are not
overlong. -/
theorem intPromise_iff {pt : AtParaType} {member : BitVec 32 → AtValue}
    {good : List Byte → Prop} (int : IntType accepts number pt member good)
    (opt : Nat) (cursor : List Byte) :
    FieldPromise pt opt cursor ↔ ¬ Overlong accepts good opt cursor := by
  constructor
  · rintro promise ⟨accepted, some_, short, bad, endType, para, ends, allowed⟩
    have stored := promise.refused (by
      rintro ⟨value, endType, para, found⟩
      exact bad ((int.denotes _ _ _).mp found.denotes).2.2.2.1)
    rw [int.get, getIntPara_taken accepts number cursor opt endType para
      accepted some_ short ends allowed] at stored
    cases stored
  · intro fine
    exact {
      taken := by
        intro value endType para found
        obtain ⟨accepted, some_, short, _, same⟩ :=
          (int.denotes _ _ _).mp found.denotes
        rw [int.get, getIntPara_taken accepts number cursor opt endType para
          accepted some_ short found.ends found.allowed, same]
        rfl
      refused := by
        intro none
        rw [int.get]
        unfold Para.map
        dsimp only
        cases stored : (getIntPara accepts number cursor opt).stored with
        | none => rfl
        | some value =>
            obtain ⟨accepted, some_, short, endType, para, ends, allowed⟩ :=
              getIntPara_stored accepts number cursor opt value stored
            by_cases taken : good (fieldText cursor)
            · exact absurd ⟨_, endType, para, {
                denotes := (int.denotes _ _ _).mpr
                  ⟨accepted, some_, short, taken, rfl⟩
                ends := ends
                allowed := allowed }⟩ none
            · exact absurd ⟨accepted, some_, short, taken, endType, para, ends,
                allowed⟩ fine
      behind := by
        rw [int.get]
        exact scanPara_behind accepts 11 [] cursor
      stores := by
        rw [int.stores, storesOf_below_iff _ _ _ (by decide)]
        have length := scanPara_length_le accepts 11 [] cursor (Nat.zero_le _)
        have one := (getIntPara accepts number cursor opt).stored.isSome.toNat_le
        change _ ≤ 64
        omega }

end Integers

theorem atAtoi_eq (text : List Byte) (fits : decNumber text < 2 ^ 31) :
    atAtoi text = decNumber text := by
  unfold atAtoi
  rw [foldl_eq_numberOf 10 (fun char => char.toNat - 0x30) text]
  change min (decNumber text) (2 ^ 31 - 1) = decNumber text
  omega

theorem scanHex_eq (text : List Byte)
    (digit : ∀ char ∈ text, isHex char = true) (short : text.length ≤ 8) :
    scanHex text = hexNumber text := by
  have bound := numberOf_lt 16 hexToNum text (by decide)
    fun char member => hexToNum_lt char (digit char member)
  have power : 16 ^ text.length ≤ 2 ^ 32 := by
    calc 16 ^ text.length ≤ 16 ^ 8 := Nat.pow_le_pow_right (by decide) short
      _ = 2 ^ 32 := by decide
  unfold scanHex
  rw [foldl_eq_numberOf 16 hexToNum text]
  change min (hexNumber text) (2 ^ 32 - 1) = hexNumber text
  change hexNumber text < _ at bound
  omega

theorem intType_di : IntType isDec atAtoi .di .di
    fun text => decNumber text < 2 ^ 31 := by
  exact {
    get := fun _ _ => rfl
    stores := fun _ _ => rfl
    denotes := by
      intro limit text value
      constructor
      · intro denotes
        cases denotes with
        | di _ digit some_ short fits =>
            rw [atAtoi_eq text fits]
            exact ⟨digit, some_, short, fits, rfl⟩
      · rintro ⟨digit, some_, short, fits, same⟩
        rw [same, atAtoi_eq text fits]
        exact Denotes.di text digit some_ short fits }

theorem intType_hi : IntType isHex scanHex .hi .hi
    fun text => text.length ≤ 8 := by
  exact {
    get := fun _ _ => rfl
    stores := fun _ _ => rfl
    denotes := by
      intro limit text value
      constructor
      · intro denotes
        cases denotes with
        | hi _ digit some_ short =>
            rw [scanHex_eq text digit short]
            exact ⟨digit, some_, by omega, short, rfl⟩
      · rintro ⟨digit, some_, _, short, same⟩
        rw [same, scanHex_eq text digit short]
        exact Denotes.hi text digit some_ short }

/-- Up to ten decimal digits of a number that does not fit 32 bits with a
sign. -/
def DiOverlong (opt : Nat) (cursor : List Byte) : Prop :=
  Overlong isDec (fun text => decNumber text < 2 ^ 31) opt cursor

def HiOverlong (opt : Nat) (cursor : List Byte) : Prop :=
  Overlong isHex (fun text => text.length ≤ 8) opt cursor

theorem diPromise_iff (opt : Nat) (cursor : List Byte) :
    FieldPromise .di opt cursor ↔ ¬ DiOverlong opt cursor :=
  intPromise_iff intType_di opt cursor

theorem hiPromise_iff (opt : Nat) (cursor : List Byte) :
    FieldPromise .hi opt cursor ↔ ¬ HiOverlong opt cursor :=
  intPromise_iff intType_hi opt cursor

end XR872.AtCmd
