/-
Addresses against their grammar.

The loop stores a number at every dot and the caller stores the one in front of
the end. What it has read between two ends is described by the digits it held
before, the numbers it stored and the digits it holds after.
-/

import XR872.AtCmd.GrammarScan

namespace XR872.AtCmd

open BitView

/-! ### Numbers between dots -/

theorem decNumber_small (digits : List Byte)
    (digit : ∀ char ∈ digits, isDec char = true) (short : digits.length ≤ 3) :
    decNumber digits < 1000 := by
  have value : ∀ char : Byte, isDec char = true → char.toNat - 0x30 < 10 := by
    decide
  have bound := numberOf_lt 10 (fun char => char.toNat - 0x30) digits (by decide)
    fun char member => value char (digit char member)
  have power : 10 ^ digits.length ≤ 10 ^ 3 :=
    Nat.pow_le_pow_right (by decide) short
  exact Nat.lt_of_lt_of_le bound power

/-- Digits give a byte exactly if they are an octet, and that byte is its
number. -/
theorem decByte_iff (digits : List Byte)
    (digit : ∀ char ∈ digits, isDec char = true) (byte : Byte) :
    decByte digits = some byte ↔
      IsOctet digits ∧ byte = BitVec.ofNat 8 (decNumber digits) := by
  unfold decByte
  by_cases length : 1 ≤ digits.length ∧ digits.length ≤ 3
  · have small := decNumber_small digits digit length.2
    have number : atAtoi digits = decNumber digits :=
      atAtoi_eq digits (by omega)
    rw [if_pos length, number]
    by_cases fits : decNumber digits ≤ 255
    · rw [if_pos fits]
      constructor
      · intro same
        exact ⟨⟨digit, length.1, length.2, fits⟩, (Option.some.inj same).symm⟩
      · rintro ⟨_, same⟩
        rw [same]
    · rw [if_neg fits]
      apply iff_of_false nofun
      rintro ⟨octet, _⟩
      exact fits octet.small
  · rw [if_neg length]
    apply iff_of_false nofun
    rintro ⟨octet, _⟩
    exact length ⟨octet.some_, octet.short⟩

/-! ### What the loop reads -/

inductive IpText : List Byte → List Byte → List Byte → List Byte → Prop
  | done (decbuf : List Byte) : IpText decbuf [] [] decbuf
  | digit (decbuf : List Byte) (char : Byte) (text bytes last : List Byte)
      (dec : isDec char = true) (room : decbuf.length < 3)
      (rest : IpText (decbuf ++ [char]) text bytes last) :
      IpText decbuf (char :: text) bytes last
  | dot (decbuf : List Byte) (byte : Byte) (text bytes last : List Byte)
      (stored : decByte decbuf = some byte) (rest : IpText [] text bytes last) :
      IpText decbuf (AT_DOT :: text) (byte :: bytes) last

theorem isDec_inside (char : Byte) (dec : isDec char = true) :
    Inside char ∧ char ≠ AT_DOT := by
  revert char
  decide

theorem dot_inside : Inside AT_DOT := by
  decide

theorem ipText_inside {decbuf text bytes last : List Byte}
    (read : IpText decbuf text bytes last) : ∀ char ∈ text, Inside char := by
  induction read with
  | done decbuf => nofun
  | digit decbuf char text bytes last dec room rest ih =>
      exact List.forall_mem_cons.mpr ⟨(isDec_inside char dec).1, ih⟩
  | dot decbuf byte text bytes last stored rest ih =>
      exact List.forall_mem_cons.mpr ⟨dot_inside, ih⟩

theorem ipText_digits (decbuf digits text bytes last : List Byte)
    (digit : ∀ char ∈ digits, isDec char = true)
    (short : (decbuf ++ digits).length ≤ 3)
    (rest : IpText (decbuf ++ digits) text bytes last) :
    IpText decbuf (digits ++ text) bytes last := by
  induction digits generalizing decbuf with
  | nil =>
      rw [List.append_nil] at rest
      exact rest
  | cons char digits ih =>
      have room : decbuf.length < 3 := by
        rw [List.length_append, List.length_cons] at short
        omega
      rw [List.append_cons] at short rest
      exact IpText.digit decbuf char _ bytes last
        (digit char List.mem_cons_self) room
        (ih (decbuf ++ [char])
          (fun other member => digit other (List.mem_cons_of_mem char member))
          short rest)

theorem ipText_nil {decbuf text bytes last : List Byte}
    (read : IpText decbuf text bytes last) (none : bytes = []) :
    last = decbuf ++ text ∧ ∀ char ∈ text, isDec char = true := by
  induction read with
  | done decbuf => exact ⟨(List.append_nil decbuf).symm, nofun⟩
  | digit decbuf char text bytes last dec room rest ih =>
      obtain ⟨held, digit⟩ := ih none
      rw [List.append_cons]
      exact ⟨held, List.forall_mem_cons.mpr ⟨dec, digit⟩⟩
  | dot decbuf byte text bytes last stored rest ih => cases none

/-- A stored byte is that of the digits in front of the first dot. -/
theorem ipText_cons {decbuf text bytes last : List Byte}
    (read : IpText decbuf text bytes last) (byte : Byte) (later : List Byte)
    (some_ : bytes = byte :: later) :
    ∃ digits rest, text = digits ++ AT_DOT :: rest ∧
      (∀ char ∈ digits, isDec char = true) ∧
      decByte (decbuf ++ digits) = some byte ∧ IpText [] rest later last := by
  induction read with
  | done decbuf => cases some_
  | digit decbuf char text bytes last dec room rest ih =>
      obtain ⟨digits, behind, split, digit, stored, read⟩ := ih some_
      refine ⟨char :: digits, behind, by rw [split]; rfl,
        List.forall_mem_cons.mpr ⟨dec, digit⟩, ?_, read⟩
      rw [List.append_cons]
      exact stored
  | dot decbuf first text bytes last stored rest ih =>
      cases some_
      refine ⟨[], text, rfl, nofun, ?_, rest⟩
      rw [List.append_nil]
      exact stored

/-! ### The loop -/

theorem scanIpPara_taken {decbuf text bytes last : List Byte}
    (read : IpText decbuf text bytes last) (strbuf ending : List Byte)
    (endType : Nat) (para : List Byte)
    (room : (strbuf ++ bytes).length < 4)
    (ends : paraEnd ending = some (endType, para)) :
    scanIpPara strbuf decbuf (text ++ ending) =
      ({ strbuf := strbuf ++ bytes, endType, para }, last) := by
  induction read generalizing strbuf with
  | done decbuf =>
      rw [List.append_nil] at room ⊢
      rw [List.nil_append]
      cases ending with
      | nil => cases ends
      | cons char rest =>
          rw [scanIpPara, if_pos room, ends]
  | digit decbuf char text bytes last dec free rest ih =>
      obtain ⟨inside, noDot⟩ := isDec_inside char dec
      have fits : strbuf.length < 4 := by
        rw [List.length_append] at room
        omega
      rw [List.cons_append, scanIpPara, if_pos fits,
        (paraEnd_eq_none _ _).mpr inside]
      dsimp only
      rw [if_neg noDot, if_pos dec, if_pos free]
      exact ih strbuf room
  | dot decbuf byte text bytes last stored rest ih =>
      have fits : strbuf.length < 4 := by
        rw [List.length_append] at room
        omega
      rw [List.cons_append, scanIpPara, if_pos fits,
        (paraEnd_eq_none _ _).mpr dot_inside]
      dsimp only
      rw [if_pos rfl, stored, List.append_cons]
      rw [List.append_cons] at room
      exact ih (strbuf ++ [byte]) room

theorem scanIpPara_seen (strbuf decbuf line : List Byte)
    (seen : (scanIpPara strbuf decbuf line).1.endType ≠ 0) :
    ∃ text ending bytes, line = text ++ ending ∧
      paraEnd ending = some ((scanIpPara strbuf decbuf line).1.endType,
        (scanIpPara strbuf decbuf line).1.para) ∧
      (scanIpPara strbuf decbuf line).1.strbuf = strbuf ++ bytes ∧
      IpText decbuf text bytes (scanIpPara strbuf decbuf line).2 := by
  induction line generalizing strbuf decbuf with
  | nil => exact absurd rfl seen
  | cons char rest ih =>
      rw [scanIpPara] at seen ⊢
      by_cases room : strbuf.length < 4
      · rw [if_pos room] at seen ⊢
        cases ends : paraEnd (char :: rest) with
        | some found =>
            exact ⟨[], char :: rest, [], rfl, ends,
              (List.append_nil strbuf).symm, IpText.done decbuf⟩
        | none =>
            rw [ends] at seen
            dsimp only at seen ⊢
            by_cases dot : char = AT_DOT
            · rw [if_pos dot] at seen ⊢
              cases stored : decByte decbuf with
              | none =>
                  rw [stored] at seen
                  exact absurd rfl seen
              | some byte =>
                  rw [stored] at seen
                  obtain ⟨text, ending, bytes, split, endsAt, kept, read⟩ :=
                    ih _ _ seen
                  refine ⟨char :: text, ending, byte :: bytes,
                    by rw [split]; rfl, endsAt, ?_, ?_⟩
                  · rw [List.append_cons]
                    exact kept
                  · rw [dot]
                    exact IpText.dot decbuf byte text bytes _ stored read
            · rw [if_neg dot] at seen ⊢
              by_cases dec : isDec char = true
              · rw [if_pos dec] at seen ⊢
                by_cases free : decbuf.length < 3
                · rw [if_pos free] at seen ⊢
                  obtain ⟨text, ending, bytes, split, endsAt, kept, read⟩ :=
                    ih _ _ seen
                  exact ⟨char :: text, ending, bytes, by rw [split]; rfl,
                    endsAt, kept,
                    IpText.digit decbuf char text bytes _ dec free read⟩
                · rw [if_neg free] at seen
                  exact absurd rfl seen
              · rw [if_neg dec] at seen
                exact absurd rfl seen
      · rw [if_neg room] at seen
        exact absurd rfl seen

theorem scanIpPara_length_le (strbuf decbuf line : List Byte)
    (room : strbuf.length ≤ 4) :
    (scanIpPara strbuf decbuf line).1.strbuf.length ≤ 4 := by
  induction line generalizing strbuf decbuf with
  | nil => exact room
  | cons char rest ih =>
      rw [scanIpPara]
      split
      · rename_i free
        cases paraEnd (char :: rest) with
        | some found => exact room
        | none =>
            dsimp only
            split
            · cases decByte decbuf with
              | none => exact room
              | some byte =>
                  apply ih
                  rw [List.length_append, List.length_singleton]
                  exact free
            · split
              · split
                · exact ih strbuf _ room
                · exact room
              · exact room
      · exact room

theorem scanIpPara_behind (strbuf decbuf line : List Byte) :
    afterLine line <:+ (scanIpPara strbuf decbuf line).1.para := by
  induction line generalizing strbuf decbuf with
  | nil => exact List.suffix_rfl
  | cons char rest ih =>
      rw [scanIpPara]
      split
      · cases ends : paraEnd (char :: rest) with
        | some found => exact paraEnd_suffix _ found.1 found.2 ends
        | none =>
            have inside := (paraEnd_eq_none char rest).mp ends
            dsimp only
            split
            · cases decByte decbuf with
              | none =>
                  rw [afterLine_cons _ _ inside]
                  exact afterLine_suffix rest
              | some byte =>
                  rw [afterLine_cons _ _ inside]
                  exact ih _ _
            · split
              · split
                · rw [afterLine_cons _ _ inside]
                  exact ih _ _
                · exact afterLine_suffix _
              · exact afterLine_suffix _
      · exact afterLine_suffix _

/-! ### Addresses -/

theorem ipText_address (a b c d : List Byte) (first : IsOctet a)
    (second : IsOctet b) (third : IsOctet c) (fourth : IsOctet d) :
    IpText [] (a ++ AT_DOT :: (b ++ AT_DOT :: (c ++ AT_DOT :: d)))
      ([a, b, c].map fun octet => BitVec.ofNat 8 (decNumber octet)) d := by
  have part : ∀ digits text bytes last : List Byte, IsOctet digits →
      IpText [] text bytes last →
      IpText [] (digits ++ AT_DOT :: text)
        (BitVec.ofNat 8 (decNumber digits) :: bytes) last := by
    intro digits text bytes last octet rest
    exact ipText_digits [] digits _ _ _ octet.digit octet.short
      (IpText.dot _ _ _ _ _
        ((decByte_iff digits octet.digit _).mpr ⟨octet, rfl⟩) rest)
  have tail : IpText [] d [] d := by
    have digits := ipText_digits [] d [] [] d fourth.digit fourth.short
      (IpText.done d)
    rw [List.append_nil] at digits
    exact digits
  exact part a _ _ _ first (part b _ _ _ second (part c _ _ _ third tail))

/-- Three bytes and the digits of a fourth were read from an address. -/
theorem address_of_ipText (text bytes last : List Byte) (byte : Byte)
    (read : IpText [] text bytes last) (three : bytes.length = 3)
    (fourth : decByte last = some byte) (limit : Nat) :
    Denotes limit .ip text (.ip (bytes ++ [byte])) := by
  match bytes, three with
  | [x, y, z], _ =>
      obtain ⟨a, afterA, splitA, digitA, storedA, readB⟩ :=
        ipText_cons read x [y, z] rfl
      obtain ⟨b, afterB, splitB, digitB, storedB, readC⟩ :=
        ipText_cons readB y [z] rfl
      obtain ⟨c, d, splitC, digitC, storedC, readD⟩ :=
        ipText_cons readC z [] rfl
      obtain ⟨same, digitD⟩ := ipText_nil readD rfl
      rw [List.nil_append] at storedA storedB storedC same
      rw [same] at fourth
      obtain ⟨octetA, valueA⟩ := (decByte_iff a digitA x).mp storedA
      obtain ⟨octetB, valueB⟩ := (decByte_iff b digitB y).mp storedB
      obtain ⟨octetC, valueC⟩ := (decByte_iff c digitC z).mp storedC
      obtain ⟨octetD, valueD⟩ := (decByte_iff d digitD byte).mp fourth
      rw [splitA, splitB, splitC, valueA, valueB, valueC, valueD]
      exact Denotes.ip a b c d octetA octetB octetC octetD

theorem getIpPara_taken (cursor : List Byte) (opt endType : Nat)
    (value : AtValue) (para : List Byte)
    (found : Matches .ip opt cursor value endType para) :
    getPara .ip opt cursor =
      { stored := some value
        lineOver := decide (endType = AET_LINE)
        para := para } := by
  obtain ⟨denotes, ends, allowed⟩ := found
  have whole := fieldText_append_fieldEnding cursor
  generalize fieldText cursor = text at denotes whole
  cases denotes with
  | ip a b c d first second third fourth =>
      have read := scanIpPara_taken
        (ipText_address a b c d first second third fourth) []
        (fieldEnding cursor) endType para (show 3 < 4 from Nat.lt_succ_self 3) ends
      have last := (decByte_iff d fourth.digit _).mpr ⟨fourth, rfl⟩
      rw [whole] at read
      unfold getPara getIpPara
      dsimp only
      rw [read]
      dsimp only
      rw [if_pos allowed, last]
      rfl

theorem getIpPara_matches (cursor : List Byte) (opt : Nat) (bytes : List Byte)
    (stored : (getIpPara cursor opt).stored = some bytes) :
    ∃ value endType para, Matches .ip opt cursor value endType para := by
  unfold getIpPara at stored
  dsimp only at stored
  split at stored
  · rename_i allowed
    have seen : (scanIpPara [] [] cursor).1.endType ≠ 0 := by
      intro nothing
      rw [nothing, Nat.zero_and] at allowed
      exact allowed rfl
    obtain ⟨text, ending, read, split, ends, kept, ipText⟩ :=
      scanIpPara_seen [] [] cursor seen
    have field := field_append text ending _ (ipText_inside ipText) ends
    rw [← split] at field
    rw [List.nil_append] at kept
    cases last : decByte (scanIpPara [] [] cursor).2 with
    | none =>
        rw [last] at stored
        cases stored
    | some byte =>
        rw [last] at stored
        dsimp only at stored
        split at stored
        · rename_i four
          rw [kept, List.length_append, List.length_singleton] at four
          have address := address_of_ipText text read _ byte ipText (by omega)
            last (SIZE_LIMIT opt)
          exact ⟨.ip (read ++ [byte]), (scanIpPara [] [] cursor).1.endType,
            (scanIpPara [] [] cursor).1.para, {
              denotes := by
                rw [field.1]
                exact address
              ends := by
                rw [field.2]
                exact ends
              allowed := allowed }⟩
        · cases stored
  · cases stored

theorem ipPromise (opt : Nat) (cursor : List Byte) :
    FieldPromise .ip opt cursor := by
  exact {
    taken := fun value endType para found =>
      getIpPara_taken cursor opt endType value para found
    refused := by
      intro none
      unfold getPara Para.map
      dsimp only
      cases stored : (getIpPara cursor opt).stored with
      | none => rfl
      | some bytes => exact absurd (getIpPara_matches cursor opt bytes stored) none
    behind := scanIpPara_behind [] [] cursor
    stores := by
      unfold strbufStores
      rw [storesOf_below_iff _ _ _ (by decide)]
      have length := scanIpPara_length_le [] [] cursor (Nat.zero_le _)
      have one := (decide ((scanIpPara [] [] cursor).1.endType &&& opt ≠ 0) &&
        (decByte (scanIpPara [] [] cursor).2).isSome).toNat_le
      change _ ≤ 64
      omega }

end XR872.AtCmd
