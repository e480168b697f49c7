/-
The texts of values, given back to the loops that read parameters.

Decimal texts come back, alone and between dots. The prefix of a hexadecimal
integer and the separator of an array are characters that no loop accepts.
-/

import XR872.AtCmd.ParameterSpec

namespace XR872.AtCmd

open BitView

/-! ### Decimal texts -/

def decText (num : Nat) : List Byte := charBytes (toString num)

theorem decText_eq (num : Nat) :
    decText num =
      (Nat.toDigits 10 num).map fun char => BitVec.ofNat 8 char.toNat := by
  unfold decText charBytes
  rw [Nat.toString_eq_repr, Nat.toList_repr]

theorem digit_byte (char : Char) (digit : char.isDigit = true) :
    isDec (BitVec.ofNat 8 char.toNat) = true ∧
      Inside (BitVec.ofNat 8 char.toNat) ∧
      BitVec.ofNat 8 char.toNat ≠ AT_DOT ∧
      (BitVec.ofNat 8 char.toNat).toNat - 0x30 = char.toNat - '0'.toNat := by
  have checked : ∀ num : Fin 10,
      isDec (BitVec.ofNat 8 (48 + num.val)) = true ∧
        Inside (BitVec.ofNat 8 (48 + num.val)) ∧
        BitVec.ofNat 8 (48 + num.val) ≠ AT_DOT ∧
        (BitVec.ofNat 8 (48 + num.val)).toNat - 0x30 = num.val := by decide
  have bounds : 48 ≤ char.toNat ∧ char.toNat ≤ 57 := by
    have both := digit
    unfold Char.isDigit at both
    rw [Bool.and_eq_true, decide_eq_true_iff, decide_eq_true_iff] at both
    exact both
  have here := checked ⟨char.toNat - 48, by omega⟩
  have value : 48 + (char.toNat - 48) = char.toNat := by omega
  simp only [value] at here
  exact here

theorem decText_digits (num : Nat) (char : Byte) (member : char ∈ decText num) :
    isDec char = true ∧ Inside char ∧ char ≠ AT_DOT := by
  rw [decText_eq] at member
  obtain ⟨digit, inside, same⟩ := List.mem_map.mp member
  have facts := digit_byte digit
    (Nat.isDigit_of_mem_toDigits (by decide) (by decide) inside)
  rw [← same]
  exact ⟨facts.1, facts.2.1, facts.2.2.1⟩

theorem decText_length_pos (num : Nat) : 0 < (decText num).length := by
  rw [decText_eq, List.length_map]
  exact Nat.length_toDigits_pos

theorem decText_length_le (num digits : Nat) (positive : 0 < digits)
    (small : num < 10 ^ digits) : (decText num).length ≤ digits := by
  rw [decText_eq, List.length_map]
  exact (Nat.length_toDigits_le_iff (by decide) positive).mpr small

theorem foldl_digits (digits : List Char) (num : Nat)
    (all : ∀ char ∈ digits, char.isDigit = true) :
    (digits.map fun char => BitVec.ofNat 8 char.toNat).foldl
        (fun num ch => 10 * num + (ch.toNat - 0x30)) num =
      Nat.ofDigitChars 10 digits num := by
  induction digits generalizing num with
  | nil => rw [Nat.ofDigitChars_nil]; rfl
  | cons char rest ih =>
      have here := (digit_byte char (all char List.mem_cons_self)).2.2.2
      rw [List.map_cons, List.foldl_cons, Nat.ofDigitChars_cons, here]
      exact ih _ fun other member => all other (List.mem_cons_of_mem _ member)

/-- `atoi` takes back what `%d` has printed. -/
theorem atAtoi_decText (num : Nat) (small : num < 2 ^ 31) :
    atAtoi (decText num) = num := by
  unfold atAtoi
  rw [decText_eq, foldl_digits _ _ fun char member =>
      Nat.isDigit_of_mem_toDigits (by decide) (by decide) member,
    Nat.ofDigitChars_ten_toDigits]
  omega

/-! ### Integers -/

theorem getIntPara_text (accepts : Byte → Bool) (number : List Byte → Nat)
    (text ending : List Byte) (opt : Nat)
    (accepted : ∀ char ∈ text, accepts char = true)
    (inside : ∀ char ∈ text, Inside char) (some_ : 0 < text.length)
    (short : text.length < 11) (ends : EndsLine ending)
    (asked : AET_LINE &&& opt ≠ 0) :
    (getIntPara accepts number (text ++ ending) opt).stored =
      some (BitVec.ofNat 32 (number text)) := by
  obtain ⟨para, seen⟩ := paraEnd_line ending ends
  have scanned : scanPara accepts 11 [] (text ++ ending) =
      { strbuf := text, endType := AET_LINE, para } := by
    rw [scanPara_inside _ _ _ _ _ inside accepted
      (by rw [List.length_nil]; omega), List.nil_append]
    exact scanPara_end _ _ _ _ _ _ seen short
  unfold getIntPara
  simp only [scanned]
  exact if_pos ⟨asked, some_, short⟩

theorem getIntPara_refused (accepts : Byte → Bool) (number : List Byte → Nat)
    (text rest : List Byte) (char : Byte) (opt : Nat)
    (accepted : ∀ char ∈ text, accepts char = true)
    (inside : ∀ char ∈ text, Inside char) (short : text.length ≤ 11)
    (stops : Inside char) (refused : accepts char = false) :
    (getIntPara accepts number (text ++ char :: rest) opt).stored = none := by
  have unseen : (scanPara accepts 11 [] (text ++ char :: rest)).endType = 0 := by
    rw [scanPara_inside _ _ _ _ _ inside accepted
      (by rw [List.length_nil]; omega)]
    exact scanPara_refused _ _ _ _ _ stops refused
  unfold getIntPara
  simp only [unseen, Nat.zero_and]
  exact if_neg fun both => both.1 rfl

theorem getDiPara_text (di : BitVec 32) (ending : List Byte) (opt : Nat)
    (natural : 0 ≤ di.toInt) (ends : EndsLine ending)
    (asked : AET_LINE &&& opt ≠ 0) :
    (getDiPara (charBytes (toString di.toInt) ++ ending) opt).stored =
      some di := by
  obtain ⟨num, value⟩ := Int.eq_ofNat_of_zero_le natural
  have bound := BitVec.toInt_lt (x := di)
  have small : num < 2 ^ 31 := by omega
  have text : charBytes (toString di.toInt) = decText num := by
    rw [value]
    rfl
  rw [text]
  unfold getDiPara
  rw [getIntPara_text isDec atAtoi (decText num) ending opt
    (fun char member => (decText_digits num char member).1)
    (fun char member => (decText_digits num char member).2.1)
    (decText_length_pos num)
    (Nat.lt_succ_of_le (decText_length_le num 10 (by decide) (by omega)))
    ends asked, atAtoi_decText num small]
  congr 1
  apply BitVec.eq_of_toNat_eq
  have signed := BitVec.toInt_eq_toNat_cond di
  rw [BitVec.toNat_ofNat]
  split at signed
  · omega
  · have bits := di.isLt
    omega

theorem getDiPara_negative (di : BitVec 32) (ending : List Byte) (opt : Nat)
    (negative : di.toInt < 0) :
    (getDiPara (charBytes (toString di.toInt) ++ ending) opt).stored = none := by
  obtain ⟨num, value⟩ := Int.eq_negSucc_of_lt_zero negative
  have text : charBytes (toString di.toInt) =
      0x2d#8 :: charBytes (toString (num + 1)) := by
    rw [value]
    change charBytes ("-" ++ toString (num + 1)) = _
    unfold charBytes
    rw [String.toList_append]
    rfl
  rw [text, List.cons_append]
  exact getIntPara_refused isDec atAtoi [] _ 0x2d#8 opt
    (fun _ member => absurd member List.not_mem_nil)
    (fun _ member => absurd member List.not_mem_nil) (Nat.zero_le _)
    (by decide) (by decide)

theorem getHiPara_prefixed (rest : List Byte) (opt : Nat) :
    (getHiPara (charBytes "0x" ++ rest) opt).stored = none :=
  getIntPara_refused isHex scanHex [0x30#8] rest 0x78#8 opt (by decide)
    (by decide) (by decide) (by decide) (by decide)

/-! ### Arrays -/

theorem hexDigit_plain : ∀ num < 16,
    isHex (hexDigit num) = true ∧ Inside (hexDigit num) := by decide

theorem hexText_two (num : Nat) :
    hexText 2 num = [hexDigit (num / 16 % 16), hexDigit (num % 16)] := by
  change [hexDigit (num / 16 ^ 1 % 16), hexDigit (num / 16 ^ 0 % 16)] = _
  rw [pow_one, pow_zero, Nat.div_one]

/-- The separator behind the first byte of an array is not accepted. -/
theorem getHexPara_separated (first second : Byte) (bytes ending : List Byte)
    (opt : Nat) :
    (getHexPara (separated 0x3a#8 (fun byte => hexText 2 byte.toNat)
      (first :: second :: bytes) ++ ending) opt).stored = none := by
  obtain ⟨highHex, highInside⟩ := hexDigit_plain (first.toNat / 16 % 16)
    (Nat.mod_lt _ (by decide))
  obtain ⟨lowHex, lowInside⟩ := hexDigit_plain (first.toNat % 16)
    (Nat.mod_lt _ (by decide))
  have high := fun rest => (paraEnd_eq_none _ rest).mpr highInside
  have low := fun rest => (paraEnd_eq_none _ rest).mpr lowInside
  have colon := fun rest => (paraEnd_eq_none 0x3a#8 rest).mpr (by decide)
  have notHex : isHex 0x3a#8 = false := by decide
  have unseen : ∀ rest, (scanHexPara (SIZE_LIMIT opt) [] []
      (hexDigit (first.toNat / 16 % 16) :: hexDigit (first.toNat % 16) ::
        0x3a#8 :: rest)).1.endType = 0 := by
    intro rest
    by_cases room : 0 < SIZE_LIMIT opt
    · simp only [scanHexPara, List.length_nil, List.length_append,
        List.nil_append, List.length_cons, if_pos room, high, low, colon,
        highHex, lowHex, notHex]
      simp
    · simp only [scanHexPara, List.length_nil, if_neg room]
  simp only [separated, hexText_two, List.flatMap_cons, List.cons_append,
    List.nil_append, getHexPara, unseen, Nat.zero_and]
  rw [if_neg fun both => both.1 rfl]

/-! ### Addresses -/

theorem scanIpPara_digits (strbuf decbuf digits rest : List Byte)
    (all : ∀ char ∈ digits, isDec char = true ∧ Inside char ∧ char ≠ AT_DOT)
    (open_ : strbuf.length < 4)
    (room : decbuf.length + digits.length ≤ 3) :
    scanIpPara strbuf decbuf (digits ++ rest) =
      scanIpPara strbuf (decbuf ++ digits) rest := by
  induction digits generalizing decbuf with
  | nil => rw [List.nil_append, List.append_nil]
  | cons char digits ih =>
      obtain ⟨dec, inside, noDot⟩ := all char List.mem_cons_self
      have here := (paraEnd_eq_none char (digits ++ rest)).mpr inside
      rw [List.length_cons] at room
      have step : scanIpPara strbuf decbuf (char :: (digits ++ rest)) =
          scanIpPara strbuf (decbuf ++ [char]) (digits ++ rest) := by
        conv_lhs => unfold scanIpPara
        simp only [if_pos open_, here, if_neg noDot, dec, if_true,
          if_pos (show decbuf.length < 3 by omega)]
      rw [List.cons_append, step, ih (decbuf ++ [char])
        (fun other member => all other (List.mem_cons_of_mem _ member))
        (by rw [List.length_append, List.length_singleton]; omega),
        List.append_assoc, List.singleton_append]

theorem decByte_decText (byte : Byte) : decByte (decText byte.toNat) =
    some byte := by
  have bound := byte.isLt
  have length := decText_length_le byte.toNat 3 (by decide) (by omega)
  have positive := decText_length_pos byte.toNat
  unfold decByte
  rw [if_pos ⟨positive, length⟩, atAtoi_decText _ (by omega),
    if_pos (by omega), BitVec.ofNat_toNat, BitVec.setWidth_eq]

theorem scanIpPara_byte (strbuf rest : List Byte) (byte : Byte)
    (open_ : strbuf.length < 4) :
    scanIpPara strbuf [] (decText byte.toNat ++ AT_DOT :: rest) =
      scanIpPara (strbuf ++ [byte]) [] rest := by
  have bound := byte.isLt
  have length := decText_length_le byte.toNat 3 (by decide) (by omega)
  rw [scanIpPara_digits strbuf [] _ _ (decText_digits _) open_
    (by rw [List.length_nil]; omega), List.nil_append]
  have here := (paraEnd_eq_none AT_DOT rest).mpr (by decide)
  conv_lhs => unfold scanIpPara
  simp only [if_pos open_, here, if_true, decByte_decText]

theorem scanIpPara_last (strbuf ending : List Byte) (byte : Byte)
    (para : List Byte) (open_ : strbuf.length < 4)
    (ends : paraEnd ending = some (AET_LINE, para)) :
    scanIpPara strbuf [] (decText byte.toNat ++ ending) =
      ({ strbuf, endType := AET_LINE, para }, decText byte.toNat) := by
  have bound := byte.isLt
  have length := decText_length_le byte.toNat 3 (by decide) (by omega)
  rw [scanIpPara_digits strbuf [] _ _ (decText_digits _) open_
    (by rw [List.length_nil]; omega), List.nil_append]
  cases ending with
  | nil => cases ends
  | cons char tail => simp only [scanIpPara, if_pos open_, ends]

theorem getIpPara_text (ip ending : List Byte) (opt : Nat)
    (four : ip.length = 4) (ends : EndsLine ending)
    (asked : AET_LINE &&& opt ≠ 0) :
    (getIpPara (separated AT_DOT (fun byte => charBytes (toString byte.toNat))
      ip ++ ending) opt).stored = some ip := by
  obtain ⟨a, b, c, d, rfl⟩ : ∃ a b c d, ip = [a, b, c, d] := by
    match ip, four with
    | [a, b, c, d], _ => exact ⟨a, b, c, d, rfl⟩
  obtain ⟨para, seen⟩ := paraEnd_line ending ends
  have text : separated AT_DOT (fun byte => charBytes (toString byte.toNat))
      [a, b, c, d] ++ ending =
      decText a.toNat ++ AT_DOT :: (decText b.toNat ++
        AT_DOT :: (decText c.toNat ++ AT_DOT :: (decText d.toNat ++ ending))) := by
    simp only [separated, List.flatMap_cons, List.flatMap_nil, decText,
      List.append_assoc, List.cons_append, List.append_nil]
  have scanned : scanIpPara [] [] (decText a.toNat ++ AT_DOT ::
      (decText b.toNat ++ AT_DOT :: (decText c.toNat ++ AT_DOT ::
        (decText d.toNat ++ ending)))) =
      ({ strbuf := [a, b, c], endType := AET_LINE, para },
        decText d.toNat) := by
    rw [scanIpPara_byte [] _ a (by simp), scanIpPara_byte _ _ b (by simp),
      scanIpPara_byte _ _ c (by simp)]
    exact scanIpPara_last _ _ d para (by simp) seen
  rw [text]
  simp only [getIpPara, scanned, decByte_decText]
  rw [if_pos asked, if_pos (by rfl)]
  rfl

end XR872.AtCmd
