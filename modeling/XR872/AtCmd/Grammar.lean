/-
The grammar of parameters, and what `at_get_parameters` promises of it.

A field is what stands in front of the next separator or line end. Its type says
which texts it may have and what they denote; its descriptor says how long it
may be and which of the two ends it may have. The promise is about every field
the list gets to: taken exactly by its grammar, with the cursor behind its end,
nothing taken behind the line, and nothing stored outside `strbuf`.
-/

import XR872.AtCmd.ParameterSpec

namespace XR872.AtCmd

open BitView

/-! ### Fields -/

def fieldText (cursor : List Byte) : List Byte :=
  cursor.takeWhile fun char => decide (Inside char)

def fieldEnding (cursor : List Byte) : List Byte :=
  cursor.dropWhile fun char => decide (Inside char)

/-- The characters behind the first line end. -/
def afterLine : List Byte → List Byte
  | [] => []
  | char :: rest =>
      if char = AT_CR then
        if rest.head? = some AT_LF then rest.tail else rest
      else if char = AT_LF then rest
      else afterLine rest

theorem fieldText_append_fieldEnding (cursor : List Byte) :
    fieldText cursor ++ fieldEnding cursor = cursor :=
  List.takeWhile_append_dropWhile

theorem inside_of_mem_fieldText (cursor : List Byte) (char : Byte)
    (member : char ∈ fieldText cursor) : Inside char :=
  of_decide_eq_true
    (List.mem_takeWhile_imp (p := fun char => decide (Inside char)) member)

theorem fieldText_cons (char : Byte) (rest : List Byte) (inside : Inside char) :
    fieldText (char :: rest) = char :: fieldText rest := by
  unfold fieldText
  exact List.takeWhile_cons_of_pos (decide_eq_true inside)

theorem fieldEnding_cons (char : Byte) (rest : List Byte)
    (inside : Inside char) :
    fieldEnding (char :: rest) = fieldEnding rest := by
  unfold fieldEnding
  exact List.dropWhile_cons_of_pos (decide_eq_true inside)

theorem field_of_paraEnd (ending : List Byte) (found : Nat × List Byte)
    (ends : paraEnd ending = some found) :
    fieldText ending = [] ∧ fieldEnding ending = ending := by
  cases ending with
  | nil => cases ends
  | cons char rest =>
      have outside : ¬ decide (Inside char) = true := by
        intro inside
        rw [(paraEnd_eq_none char rest).mpr (of_decide_eq_true inside)] at ends
        cases ends
      unfold fieldText fieldEnding
      exact ⟨List.takeWhile_cons_of_neg outside,
        List.dropWhile_cons_of_neg outside⟩

theorem field_append (text ending : List Byte) (found : Nat × List Byte)
    (inside : ∀ char ∈ text, Inside char) (ends : paraEnd ending = some found) :
    fieldText (text ++ ending) = text ∧ fieldEnding (text ++ ending) = ending := by
  induction text with
  | nil => exact field_of_paraEnd ending found ends
  | cons char text ih =>
      have here := inside char List.mem_cons_self
      obtain ⟨same, rest⟩ :=
        ih fun other member => inside other (List.mem_cons_of_mem char member)
      rw [List.cons_append, fieldText_cons _ _ here, fieldEnding_cons _ _ here,
        same, rest]
      exact ⟨rfl, rfl⟩

theorem afterLine_cons (char : Byte) (rest : List Byte) (inside : Inside char) :
    afterLine (char :: rest) = afterLine rest := by
  rw [afterLine, if_neg inside.2.1, if_neg inside.2.2]

theorem afterLine_suffix (cursor : List Byte) : afterLine cursor <:+ cursor := by
  induction cursor with
  | nil => exact List.suffix_rfl
  | cons char rest ih =>
      rw [afterLine]
      split
      · split
        · exact (List.tail_suffix rest).trans (List.suffix_cons char rest)
        · exact List.suffix_cons char rest
      · split
        · exact List.suffix_cons char rest
        · exact ih.trans (List.suffix_cons char rest)

theorem paraEnd_behind (ending : List Byte) (endType : Nat) (para : List Byte)
    (ends : paraEnd ending = some (endType, para)) :
    (endType = AET_PARA ∧ afterLine ending = afterLine para) ∨
      (endType = AET_LINE ∧ afterLine ending = para) := by
  cases ending with
  | nil => cases ends
  | cons char rest =>
      simp only [paraEnd] at ends
      by_cases separator : char = AT_SEPARATOR
      · rw [if_pos separator] at ends
        cases ends
        left
        rw [afterLine, separator, if_neg (by decide), if_neg (by decide)]
        exact ⟨rfl, rfl⟩
      · rw [if_neg separator] at ends
        right
        rw [afterLine]
        by_cases carriage : char = AT_CR
        · rw [if_pos carriage] at ends ⊢
          cases ends
          exact ⟨rfl, rfl⟩
        · rw [if_neg carriage] at ends ⊢
          by_cases feed : char = AT_LF
          · rw [if_pos feed] at ends ⊢
            cases ends
            exact ⟨rfl, rfl⟩
          · rw [if_neg feed] at ends
            cases ends

theorem paraEnd_suffix (ending : List Byte) (endType : Nat) (para : List Byte)
    (ends : paraEnd ending = some (endType, para)) :
    afterLine ending <:+ para := by
  rcases paraEnd_behind ending endType para ends with ⟨_, same⟩ | ⟨_, same⟩
  · rw [same]
    exact afterLine_suffix para
  · rw [same]

theorem afterLine_fieldEnding (cursor : List Byte) :
    afterLine (fieldEnding cursor) = afterLine cursor := by
  induction cursor with
  | nil => rfl
  | cons char rest ih =>
      by_cases inside : Inside char
      · rw [fieldEnding_cons _ _ inside, afterLine_cons _ _ inside, ih]
      · have outside : ¬ decide (Inside char) = true := by
          simpa using inside
        unfold fieldEnding
        rw [List.dropWhile_cons_of_neg (p := fun char => decide (Inside char))
          outside]

/-- In front of a line end with something behind it every field has an end, and
something behind that. -/
theorem paraEnd_of_line (cursor : List Byte) (line : afterLine cursor ≠ []) :
    ∃ endType para, paraEnd (fieldEnding cursor) = some (endType, para) ∧
      para ≠ [] ∧ (endType ≠ AET_LINE → afterLine para ≠ []) := by
  rw [← afterLine_fieldEnding] at line
  cases ends : paraEnd (fieldEnding cursor) with
  | none =>
      cases split : fieldEnding cursor with
      | nil =>
          rw [split] at line
          exact absurd rfl line
      | cons char rest =>
          have inside := (paraEnd_eq_none char rest).mp (split ▸ ends)
          have head := List.head?_dropWhile_not
            (fun char => decide (Inside char)) cursor
          unfold fieldEnding at split
          rw [split] at head
          simp [inside] at head
  | some found =>
      obtain ⟨endType, para⟩ := found
      refine ⟨endType, para, rfl, ?_, ?_⟩
      · intro nothing
        have suffix := paraEnd_suffix _ _ _ ends
        rw [nothing] at suffix
        exact line (List.suffix_nil.mp suffix)
      · intro para_end
        rcases paraEnd_behind _ _ _ ends with ⟨_, same⟩ | ⟨lineEnd, _⟩
        · rw [← same]
          exact line
        · exact absurd lineEnd para_end

/-! ### Numbers -/

/-- The number that digits of a base denote, the first digit being the
highest. -/
def numberOf (base : Nat) (digit : Byte → Nat) (text : List Byte) : Nat :=
  Nat.ofDigits base (text.reverse.map digit)

def decNumber : List Byte → Nat := numberOf 10 fun char => char.toNat - 0x30

def hexNumber : List Byte → Nat := numberOf 16 hexToNum

theorem foldl_eq_numberOf (base : Nat) (digit : Byte → Nat) (text : List Byte) :
    text.foldl (fun num char => base * num + digit char) 0 =
      numberOf base digit text := by
  unfold numberOf
  induction text using List.reverseRecOn with
  | nil => rfl
  | append_singleton text char ih =>
      rw [List.foldl_append, List.foldl_cons, List.foldl_nil, ih,
        List.reverse_append, List.reverse_singleton, List.singleton_append,
        List.map_cons, Nat.ofDigits_cons, Nat.add_comm]

theorem numberOf_lt (base : Nat) (digit : Byte → Nat) (text : List Byte)
    (large : 1 < base) (small : ∀ char ∈ text, digit char < base) :
    numberOf base digit text < base ^ text.length := by
  unfold numberOf
  have bound := Nat.ofDigits_lt_base_pow_length
    (l := text.reverse.map digit) large (by
      intro value member
      obtain ⟨char, present, same⟩ := List.mem_map.mp member
      rw [← same]
      exact small char (List.mem_reverse.mp present))
  rw [List.length_map, List.length_reverse] at bound
  exact bound

theorem hexToNum_lt (char : Byte) (digit : isHex char = true) :
    hexToNum char < 16 := by
  revert char
  decide

/-! ### The grammar -/

structure IsOctet (digits : List Byte) : Prop where
  digit : ∀ char ∈ digits, isDec char = true
  some_ : 1 ≤ digits.length
  short : digits.length ≤ 3
  small : decNumber digits ≤ 255

def hexPairs : List Byte → List Byte
  | high :: low :: rest =>
      BitVec.ofNat 8 (16 * hexToNum high + hexToNum low) :: hexPairs rest
  | _ => []

inductive Denotes (limit : Nat) : AtParaType → List Byte → AtValue → Prop
  | text (text : List Byte) (some_ : 1 ≤ text.length)
      (short : text.length < limit) : Denotes limit .text text (.text text)
  | hex (text : List Byte) (digit : ∀ char ∈ text, isHex char = true)
      (some_ : 1 ≤ text.length) (even : text.length % 2 = 0)
      (short : text.length / 2 ≤ limit) :
      Denotes limit .hex text (.hex (hexPairs text ++
        List.replicate (limit - text.length / 2) 0))
  | di (text : List Byte) (digit : ∀ char ∈ text, isDec char = true)
      (some_ : 1 ≤ text.length) (short : text.length ≤ 10)
      (fits : decNumber text < 2 ^ 31) :
      Denotes limit .di text (.di (BitVec.ofNat 32 (decNumber text)))
  | hi (text : List Byte) (digit : ∀ char ∈ text, isHex char = true)
      (some_ : 1 ≤ text.length) (short : text.length ≤ 8) :
      Denotes limit .hi text (.hi (BitVec.ofNat 32 (hexNumber text)))
  | ip (a b c d : List Byte) (first : IsOctet a) (second : IsOctet b)
      (third : IsOctet c) (fourth : IsOctet d) :
      Denotes limit .ip
        (a ++ AT_DOT :: (b ++ AT_DOT :: (c ++ AT_DOT :: d)))
        (.ip ([a, b, c, d].map fun octet => BitVec.ofNat 8 (decNumber octet)))

structure Matches (pt : AtParaType) (opt : Nat) (cursor : List Byte)
    (value : AtValue) (endType : Nat) (para : List Byte) : Prop where
  denotes : Denotes (SIZE_LIMIT opt) pt (fieldText cursor) value
  ends : paraEnd (fieldEnding cursor) = some (endType, para)
  allowed : endType &&& opt ≠ 0

/-! ### The promise -/

/-- Where a function stores in `strbuf`: its first element at the start, then
the elements in order, and one more after the loop. -/
def storesOf (scan : Scan) (last : Bool) : List Nat :=
  0 :: (List.range scan.strbuf.length ++
    if last then [scan.strbuf.length] else [])

def strbufStores (pt : AtParaType) (opt : Nat) (cursor : List Byte) : List Nat :=
  match pt with
  | .text =>
      storesOf (scanPara (fun _ => true) (SIZE_LIMIT opt) [] cursor)
        (getTextPara cursor opt).stored.isSome
  | .hex =>
      storesOf (scanHexPara (SIZE_LIMIT opt) [] [] cursor).1
        (getHexPara cursor opt).stored.isSome
  | .di => storesOf (scanPara isDec 11 [] cursor)
      (getDiPara cursor opt).stored.isSome
  | .hi => storesOf (scanPara isHex 11 [] cursor)
      (getHiPara cursor opt).stored.isSome
  | .ip =>
      storesOf (scanIpPara [] [] cursor).1
        (decide ((scanIpPara [] [] cursor).1.endType &&& opt ≠ 0) &&
          (decByte (scanIpPara [] [] cursor).2).isSome)

structure FieldPromise (pt : AtParaType) (opt : Nat) (cursor : List Byte) :
    Prop where
  taken : ∀ value endType para, Matches pt opt cursor value endType para →
    getPara pt opt cursor =
      { stored := some value
        lineOver := decide (endType = AET_LINE)
        para := para }
  refused : (¬ ∃ value endType para, Matches pt opt cursor value endType para) →
    (getPara pt opt cursor).stored = none
  behind : afterLine cursor <:+ (getPara pt opt cursor).para
  stores : ∀ index ∈ strbufStores pt opt cursor, index < AT_PARA_MAX_SIZE

/-- What is promised of every field that the list gets to. -/
def ListPromise : List AtParaDescriptor → List Byte → Prop
  | [], _ => True
  | descriptor :: rest, cursor =>
      FieldPromise descriptor.pt descriptor.option cursor ∧
        ∀ value, (getPara descriptor.pt descriptor.option cursor).stored =
            some value →
          (getPara descriptor.pt descriptor.option cursor).lineOver = false →
            ListPromise rest
              (getPara descriptor.pt descriptor.option cursor).para

end XR872.AtCmd
