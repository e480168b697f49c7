/-
Hexadecimal strings against their grammar.

The loop holds two digits until it has seen what follows them. A string that is
taken has the bytes of its grammar, but the skip behind the loop, left there
from a grammar with a character between the bytes, takes one more character:
the field behind it loses its first one.
-/

import XR872.AtCmd.GrammarScan

namespace XR872.AtCmd

open BitView

/-! ### Pairs of digits -/

theorem hexByte_pair (high low : Byte) :
    hexByte [high, low] =
      BitVec.ofNat 8 (16 * hexToNum high + hexToNum low) := by
  unfold hexByte
  rw [List.foldl_cons, List.foldl_cons, List.foldl_nil, Nat.mul_zero,
    Nat.zero_add]

theorem hexPairs_pair (high low : Byte) (text : List Byte) :
    hexPairs (high :: low :: text) = hexByte [high, low] :: hexPairs text := by
  rw [hexPairs, hexByte_pair]

theorem hexPairs_length (text : List Byte) :
    (hexPairs text).length = text.length / 2 := by
  induction text using hexPairs.induct with
  | case1 high low rest ih =>
      rw [hexPairs, List.length_cons, ih, List.length_cons, List.length_cons]
      omega
  | case2 text short =>
      match text with
      | [] => rfl
      | [char] => simp [hexPairs]
      | high :: low :: rest => exact absurd rfl (short high low rest)

def heldOf (digits : List Byte) : List Byte :=
  digits.drop (2 * ((digits.length - 1) / 2))

def bytesOf (digits : List Byte) : List Byte :=
  hexPairs (digits.take (2 * ((digits.length - 1) / 2)))

theorem heldOf_short (digits : List Byte) (short : digits.length ≤ 2) :
    heldOf digits = digits ∧ bytesOf digits = [] := by
  have none : (digits.length - 1) / 2 = 0 := by
    omega
  unfold heldOf bytesOf
  rw [none]
  exact ⟨rfl, rfl⟩

theorem heldOf_pair (high low char : Byte) (rest : List Byte) :
    heldOf (high :: low :: char :: rest) = heldOf (char :: rest) ∧
      bytesOf (high :: low :: char :: rest) =
        hexByte [high, low] :: bytesOf (char :: rest) := by
  have count : 2 * (((high :: low :: char :: rest).length - 1) / 2) =
      2 * (((char :: rest).length - 1) / 2) + 1 + 1 := by
    simp only [List.length_cons]
    omega
  unfold heldOf bytesOf
  rw [count, List.drop_succ_cons, List.drop_succ_cons, List.take_succ_cons,
    List.take_succ_cons, hexPairs_pair]
  exact ⟨rfl, rfl⟩

theorem heldOf_length (digits : List Byte) :
    (heldOf digits).length = 2 ↔ digits.length % 2 = 0 ∧ 1 ≤ digits.length := by
  unfold heldOf
  rw [List.length_drop]
  omega

/-- Stored and in hand, an even number of digits is all of its bytes. -/
theorem bytesOf_append_heldOf (digits : List Byte)
    (even : digits.length % 2 = 0) (some_ : 1 ≤ digits.length) :
    bytesOf digits ++ [hexByte (heldOf digits)] = hexPairs digits := by
  induction digits using hexPairs.induct with
  | case1 high low rest ih =>
      cases rest with
      | nil =>
          obtain ⟨held, bytes⟩ := heldOf_short [high, low] (Nat.le_refl 2)
          rw [held, bytes, hexPairs_pair]
          rfl
      | cons char rest =>
          obtain ⟨held, bytes⟩ := heldOf_pair high low char rest
          simp only [List.length_cons] at even
          rw [held, bytes, hexPairs_pair, List.cons_append, ih
            (by
              rw [List.length_cons]
              omega)
            (by
              rw [List.length_cons]
              omega)]
  | case2 digits short =>
      match digits with
      | [] => cases some_
      | [char] => cases even
      | high :: low :: rest => exact absurd rfl (short high low rest)

/-! ### The loop -/

section Loop

variable (sizeLimit : Nat)

theorem isHex_inside (char : Byte) (hex : isHex char = true) : Inside char := by
  revert char
  decide

/-- The loop on digits in front of an end: the bytes of all but the last one
or two of them are stored. -/
theorem scanHexPara_taken (strbuf hexbuf text ending : List Byte)
    (endType : Nat) (para : List Byte) (held : hexbuf.length ≤ 2)
    (digit : ∀ char ∈ text, isHex char = true)
    (room : strbuf.length + ((hexbuf ++ text).length - 1) / 2 < sizeLimit)
    (ends : paraEnd ending = some (endType, para)) :
    scanHexPara sizeLimit strbuf hexbuf (text ++ ending) =
      ({ strbuf := strbuf ++ bytesOf (hexbuf ++ text), endType, para },
        heldOf (hexbuf ++ text)) := by
  induction text generalizing strbuf hexbuf with
  | nil =>
      obtain ⟨kept, none⟩ := heldOf_short hexbuf held
      rw [List.append_nil, kept, none, List.append_nil, List.nil_append]
      cases ending with
      | nil => cases ends
      | cons char rest =>
          rw [scanHexPara, if_pos (by omega), ends]
  | cons char text ih =>
      have hex := digit char List.mem_cons_self
      have later : ∀ other ∈ text, isHex other = true :=
        fun other member => digit other (List.mem_cons_of_mem char member)
      rw [List.cons_append, scanHexPara, if_pos (by omega),
        (paraEnd_eq_none _ _).mpr (isHex_inside char hex)]
      dsimp only
      by_cases few : hexbuf.length < 2
      · rw [if_pos few, if_pos hex, List.append_cons hexbuf char text]
        rw [List.append_cons hexbuf char text] at room
        exact ih strbuf (hexbuf ++ [char])
          (by
            rw [List.length_append, List.length_singleton]
            exact few)
          later room
      · obtain ⟨high, low, pair⟩ : ∃ high low, hexbuf = [high, low] :=
          List.length_eq_two.mp (by omega)
        obtain ⟨kept, bytes⟩ := heldOf_pair high low char text
        rw [pair] at room
        simp only [List.cons_append, List.nil_append, List.length_cons] at room
        rw [if_neg few, if_pos ⟨by omega, hex⟩, pair,
          ih _ [char] (Nat.le_succ 1) later (by
            simp only [List.length_append, List.length_cons, List.length_nil]
            omega)]
        simp only [List.cons_append, List.nil_append, List.append_assoc, kept,
          bytes]

theorem scanHexPara_seen (strbuf hexbuf line : List Byte)
    (held : hexbuf.length ≤ 2)
    (seen : (scanHexPara sizeLimit strbuf hexbuf line).1.endType ≠ 0) :
    ∃ text ending, line = text ++ ending ∧
      (∀ char ∈ text, isHex char = true) ∧
      strbuf.length + ((hexbuf ++ text).length - 1) / 2 < sizeLimit ∧
      paraEnd ending =
        some ((scanHexPara sizeLimit strbuf hexbuf line).1.endType,
          (scanHexPara sizeLimit strbuf hexbuf line).1.para) := by
  induction line generalizing strbuf hexbuf with
  | nil => exact absurd rfl seen
  | cons char rest ih =>
      rw [scanHexPara] at seen ⊢
      by_cases room : strbuf.length < sizeLimit
      · rw [if_pos room] at seen ⊢
        cases ends : paraEnd (char :: rest) with
        | some found =>
            refine ⟨[], char :: rest, rfl, nofun, ?_, ends⟩
            rw [List.append_nil]
            omega
        | none =>
            rw [ends] at seen
            dsimp only at seen ⊢
            by_cases few : hexbuf.length < 2
            · rw [if_pos few] at seen ⊢
              by_cases hex : isHex char = true
              · rw [if_pos hex] at seen ⊢
                obtain ⟨text, ending, split, digit, free, endsAt⟩ :=
                  ih strbuf (hexbuf ++ [char])
                    (by
                      rw [List.length_append, List.length_singleton]
                      exact few)
                    seen
                refine ⟨char :: text, ending, by rw [split]; rfl,
                  List.forall_mem_cons.mpr ⟨hex, digit⟩, ?_, endsAt⟩
                rw [List.append_cons]
                exact free
              · rw [if_neg hex] at seen
                exact absurd rfl seen
            · rw [if_neg few] at seen ⊢
              by_cases more : strbuf.length + 1 < sizeLimit ∧ isHex char = true
              · rw [if_pos more] at seen ⊢
                obtain ⟨text, ending, split, digit, free, endsAt⟩ :=
                  ih (strbuf ++ [hexByte hexbuf]) [char] (Nat.le_succ 1) seen
                refine ⟨char :: text, ending, by rw [split]; rfl,
                  List.forall_mem_cons.mpr ⟨more.2, digit⟩, ?_, endsAt⟩
                simp only [List.length_append, List.length_cons,
                  List.length_nil] at free ⊢
                omega
              · rw [if_neg more] at seen
                exact absurd rfl seen
      · rw [if_neg room] at seen
        exact absurd rfl seen

theorem scanHexPara_behind (strbuf hexbuf line : List Byte) :
    afterLine line <:+ (scanHexPara sizeLimit strbuf hexbuf line).1.para := by
  induction line generalizing strbuf hexbuf with
  | nil => exact List.suffix_rfl
  | cons char rest ih =>
      rw [scanHexPara]
      split
      · cases ends : paraEnd (char :: rest) with
        | some found => exact paraEnd_suffix _ found.1 found.2 ends
        | none =>
            have inside := (paraEnd_eq_none char rest).mp ends
            dsimp only
            split
            · split
              · rw [afterLine_cons _ _ inside]
                exact ih _ _
              · exact afterLine_suffix _
            · split
              · rw [afterLine_cons _ _ inside]
                exact ih _ _
              · exact afterLine_suffix _
      · exact afterLine_suffix _

def hexRun (line : List Byte) : List Byte :=
  line.takeWhile isHex

/-- A run of digits up to the end of the field: its last one or two are kept
in hand there. -/
def heldBack (line : List Byte) : Nat :=
  if fieldText line = hexRun line then 1 else 0

theorem heldBack_le (line : List Byte) : heldBack line ≤ 1 := by
  unfold heldBack
  split
  · exact Nat.le_refl 1
  · exact Nat.zero_le 1

theorem hexRun_of_paraEnd (ending : List Byte) (found : Nat × List Byte)
    (ends : paraEnd ending = some found) :
    hexRun ending = [] ∧ heldBack ending = 1 := by
  obtain ⟨text, _⟩ := field_of_paraEnd ending found ends
  have run : hexRun ending = [] := by
    cases ending with
    | nil => rfl
    | cons char rest =>
        refine List.takeWhile_cons_of_neg ?_
        intro hex
        rw [(paraEnd_eq_none char rest).mpr (isHex_inside char hex)] at ends
        cases ends
  unfold heldBack
  rw [text, run, if_pos rfl]
  exact ⟨rfl, rfl⟩

theorem hexRun_digit (char : Byte) (rest : List Byte)
    (hex : isHex char = true) :
    hexRun (char :: rest) = char :: hexRun rest ∧
      heldBack (char :: rest) = heldBack rest := by
  have run : hexRun (char :: rest) = char :: hexRun rest :=
    List.takeWhile_cons_of_pos hex
  unfold heldBack
  simp only [fieldText_cons _ _ (isHex_inside char hex), run, List.cons.injEq,
    true_and]

theorem hexRun_other (char : Byte) (rest : List Byte) (inside : Inside char)
    (other : ¬ isHex char = true) :
    hexRun (char :: rest) = [] ∧ heldBack (char :: rest) = 0 := by
  have run : hexRun (char :: rest) = [] := List.takeWhile_cons_of_neg other
  unfold heldBack
  rw [fieldText_cons _ _ inside, run, if_neg (List.cons_ne_nil char _)]
  exact ⟨rfl, rfl⟩

theorem scanHexPara_length (strbuf hexbuf line : List Byte)
    (held : hexbuf.length ≤ 2) (room : strbuf.length ≤ sizeLimit) :
    (scanHexPara sizeLimit strbuf hexbuf line).1.strbuf.length =
      min sizeLimit (strbuf.length +
        (hexbuf.length + (hexRun line).length - heldBack line) / 2) := by
  induction line generalizing strbuf hexbuf with
  | nil =>
      change strbuf.length =
        min sizeLimit (strbuf.length + (hexbuf.length + 0 - 1) / 2)
      omega
  | cons char rest ih =>
      have back := heldBack_le rest
      rw [scanHexPara]
      by_cases free : strbuf.length < sizeLimit
      · rw [if_pos free]
        cases ends : paraEnd (char :: rest) with
        | some found =>
            obtain ⟨run, all⟩ := hexRun_of_paraEnd (char :: rest) found ends
            rw [run, all, List.length_nil]
            dsimp only
            omega
        | none =>
            have inside := (paraEnd_eq_none char rest).mp ends
            dsimp only
            by_cases hex : isHex char = true
            · obtain ⟨run, same⟩ := hexRun_digit char rest hex
              rw [run, same, List.length_cons]
              by_cases few : hexbuf.length < 2
              · have short : (hexbuf ++ [char]).length ≤ 2 := by
                  rw [List.length_append, List.length_singleton]
                  exact few
                rw [if_pos few, if_pos hex, ih strbuf _ short room,
                  List.length_append, List.length_singleton]
                omega
              · rw [if_neg few]
                by_cases more : strbuf.length + 1 < sizeLimit
                · have stays : (strbuf ++ [hexByte hexbuf]).length ≤
                      sizeLimit := by
                    rw [List.length_append, List.length_singleton]
                    exact free
                  rw [if_pos ⟨more, hex⟩, ih _ [char] (Nat.le_succ 1) stays,
                    List.length_append, List.length_singleton,
                    List.length_singleton]
                  omega
                · rw [if_neg (fun both => more both.1)]
                  dsimp only
                  rw [List.length_append, List.length_singleton]
                  omega
            · obtain ⟨run, none⟩ := hexRun_other char rest inside hex
              rw [run, none, List.length_nil]
              by_cases few : hexbuf.length < 2
              · rw [if_pos few, if_neg hex]
                dsimp only
                omega
              · rw [if_neg few, if_neg (fun both => hex both.2)]
                dsimp only
                rw [List.length_append, List.length_singleton]
                omega
      · rw [if_neg free]
        dsimp only
        omega

end Loop

/-! ### Hexadecimal strings -/

theorem hex_value (limit : Nat) (text : List Byte) (value : AtValue)
    (denotes : Denotes limit .hex text value) :
    (∀ char ∈ text, isHex char = true) ∧ 1 ≤ text.length ∧
      text.length % 2 = 0 ∧ text.length / 2 ≤ limit ∧
      value = .hex (hexPairs text ++
        List.replicate (limit - text.length / 2) 0) := by
  cases denotes with
  | hex _ digit some_ even short => exact ⟨digit, some_, even, short, rfl⟩

/-- A field of the grammar is stored with the value of its grammar, and the
cursor is one character too far. -/
theorem getHexPara_taken (cursor : List Byte) (opt endType : Nat)
    (value : AtValue) (para : List Byte)
    (found : Matches .hex opt cursor value endType para) :
    getPara .hex opt cursor =
      { stored := some value
        lineOver := decide (endType = AET_LINE)
        para := para.tail } := by
  obtain ⟨digit, some_, even, short, same⟩ := hex_value _ _ _ found.denotes
  have read := scanHexPara_taken (SIZE_LIMIT opt) [] [] (fieldText cursor)
    (fieldEnding cursor) endType para (Nat.zero_le 2) digit
    (by
      rw [List.nil_append, List.length_nil]
      omega)
    found.ends
  rw [fieldText_append_fieldEnding, List.nil_append, List.nil_append] at read
  have length := (heldOf_length (fieldText cursor)).mpr ⟨even, some_⟩
  have whole := bytesOf_append_heldOf (fieldText cursor) even some_
  unfold getPara getHexPara
  dsimp only
  rw [read]
  dsimp only
  rw [if_pos ⟨found.allowed, length⟩, whole, hexPairs_length, same]
  rfl

theorem getHexPara_matches (cursor : List Byte) (opt : Nat) (bytes : List Byte)
    (stored : (getHexPara cursor opt).stored = some bytes) :
    ∃ value endType para, Matches .hex opt cursor value endType para := by
  unfold getHexPara at stored
  dsimp only at stored
  split at stored
  · rename_i taken
    obtain ⟨allowed, two⟩ := taken
    have seen : (scanHexPara (SIZE_LIMIT opt) [] [] cursor).1.endType ≠ 0 := by
      intro nothing
      rw [nothing, Nat.zero_and] at allowed
      exact allowed rfl
    obtain ⟨text, ending, split, digit, room, ends⟩ :=
      scanHexPara_seen (SIZE_LIMIT opt) [] [] cursor (Nat.zero_le 2) seen
    have read := scanHexPara_taken (SIZE_LIMIT opt) [] [] text ending _ _
      (Nat.zero_le 2) digit room ends
    rw [← split, List.nil_append] at read
    rw [read, heldOf_length] at two
    have field := field_append text ending _
      (fun char member => isHex_inside char (digit char member)) ends
    rw [← split] at field
    rw [List.nil_append, List.length_nil] at room
    exact ⟨.hex (hexPairs text ++
        List.replicate (SIZE_LIMIT opt - text.length / 2) 0), _, _, {
      denotes := by
        rw [field.1]
        exact Denotes.hex text digit two.2 two.1 (by omega)
      ends := by
        rw [field.2]
        exact ends
      allowed := allowed }⟩
  · cases stored

/-- A hexadecimal string stays in `strbuf`: its limit is no larger than that,
or the digits there are fill no more. -/
def HexFits (opt : Nat) (cursor : List Byte) : Prop :=
  SIZE_LIMIT opt ≤ AT_PARA_MAX_SIZE ∨
    (hexRun cursor).length ≤ 2 * AT_PARA_MAX_SIZE + 1 ∨
    ((hexRun cursor).length = 2 * AT_PARA_MAX_SIZE + 2 ∧
      fieldText cursor = hexRun cursor)

/-- Where something follows the line, only what is refused is handled as
promised. -/
theorem hexPromise_iff (opt : Nat) (cursor : List Byte)
    (line : afterLine cursor ≠ []) :
    FieldPromise .hex opt cursor ↔
      (¬ ∃ value endType para, Matches .hex opt cursor value endType para) ∧
        HexFits opt cursor := by
  have refused : (¬ ∃ value endType para,
      Matches .hex opt cursor value endType para) →
      (getHexPara cursor opt).stored = none := by
    intro none
    cases stored : (getHexPara cursor opt).stored with
    | none => rfl
    | some bytes =>
        exact absurd (getHexPara_matches cursor opt bytes stored) none
  have stores : (getHexPara cursor opt).stored = none →
      ((∀ index ∈ strbufStores .hex opt cursor, index < AT_PARA_MAX_SIZE) ↔
        HexFits opt cursor) := by
    intro none
    have length := scanHexPara_length (SIZE_LIMIT opt) [] [] cursor
      (Nat.zero_le 2) (Nat.zero_le _)
    rw [List.length_nil, Nat.zero_add, Nat.zero_add] at length
    have positive : 0 < AT_PARA_MAX_SIZE := Nat.zero_lt_succ 63
    unfold strbufStores HexFits
    dsimp only
    rw [storesOf_below_iff _ _ _ positive, none, length]
    change _ + 0 ≤ _ ↔ _
    unfold heldBack
    by_cases whole : fieldText cursor = hexRun cursor
    · rw [if_pos whole, and_iff_left whole]
      omega
    · rw [if_neg whole]
      constructor
      · intro few
        omega
      · rintro (small | few | ⟨_, same⟩)
        · omega
        · omega
        · exact absurd same whole
  constructor
  · intro promise
    have unmatched : ¬ ∃ value endType para,
        Matches .hex opt cursor value endType para := by
      rintro ⟨value, endType, para, found⟩
      have taken := promise.taken value endType para found
      rw [getHexPara_taken cursor opt endType value para found] at taken
      obtain ⟨_, _, ends, some_, _⟩ := paraEnd_of_line cursor line
      rw [found.ends] at ends
      cases ends
      cases para with
      | nil => exact some_ rfl
      | cons char rest =>
          have length := congrArg (fun res => res.para.length) taken
          exact Nat.succ_ne_self rest.length length.symm
    exact ⟨unmatched, (stores (refused unmatched)).mp promise.stores⟩
  · rintro ⟨unmatched, fits⟩
    exact {
      taken := fun value endType para found =>
        absurd ⟨value, endType, para, found⟩ unmatched
      refused := by
        intro none
        unfold getPara Para.map
        dsimp only
        rw [refused none]
        rfl
      behind := by
        have behind := scanHexPara_behind (SIZE_LIMIT opt) [] [] cursor
        have none := refused unmatched
        unfold getPara Para.map
        dsimp only
        unfold getHexPara at none ⊢
        dsimp only at none ⊢
        split at none
        · cases none
        · rename_i refused
          rw [if_neg refused]
          exact behind
      stores := (stores (refused unmatched)).mpr fits }

end XR872.AtCmd
