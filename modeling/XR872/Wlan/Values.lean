/-
Which values the fields of a configuration take.

A form says which texts a value may have and what they denote. Each setter takes
exactly the texts of its form under a condition on the text.
-/

import XR872.Wlan.Command

namespace XR872.Wlan

open Literals
open Words

/-! ### Forms -/

inductive Form where
  | ssid (least : Nat)
  | key (size : Nat)
  | number (least most : Int)
  | channel
  | flags (names : FlagNames)
  | cipher
  | proto
  | hwMode

def orFlags (names : FlagNames) (val : Nat) (words : List Text) : Nat :=
  (words.filterMap fun word => names.lookup word).foldl (· ||| ·) val

def Known (names : FlagNames) (word : Text) : Prop :=
  (names.lookup word).isSome = true

instance (names : FlagNames) : DecidablePred (Known names) :=
  fun _ => inferInstanceAs (Decidable (_ = true))

def Lists (names : FlagNames) (words : List Text) (u : ConfigValue) : Prop :=
  words ≠ [] ∧ (∀ word ∈ words, Known names word) ∧
    u = .number (orFlags names 0 words)

def InRange (least most : Int) (value : Text) (u : ConfigValue) : Prop :=
  ∃ number, u = .number number ∧ Denotes value number ∧
    least ≤ number ∧ number ≤ most

def Form.Means : Form → Text → ConfigValue → Prop
  | .ssid least, value, u =>
      u = .ssid value value.length ∧ least ≤ value.length ∧
        value.length ≤ WLAN_SSID_MAX_LEN
  | .key size, value, u => u = .key value ∧ value.length < size
  | .number least most, value, u => InRange least most value u
  | .channel, value, u => InRange 1 13 value u
  | .flags names, value, u => Lists names (words isBlank value) u
  | .cipher, value, u => Lists cipherNames (words isBlank value) u
  | .proto, value, u =>
      words isBlank value = [protoNone] ∧ u = .number 0 ∨
        Lists protoNames (words isBlank value) u
  | .hwMode, value, u =>
      value = "b".toList ∧ u = .number 0 ∨ value = "g".toList ∧ u = .number 1

/-- The setter that is used for a form. -/
def Form.set (dup : Bool) : Form → Text → Option ConfigValue
  | .ssid least, value => setSsid least value
  | .key size, value => setKey size value
  | .number least most, value => setInt least most value
  | .channel, value => setInt 1 14 value
  | .flags names, value => setFlags 1 (parseFlags names dup value)
  | .cipher, value => setFlags 1 (cmdWpasParseCipher dup value)
  | .proto, value => setFlags 0 (cmdWpasParseProto dup value)
  | .hwMode, value => setHwMode value

/-- The text is copied, or it is none of this form anyway. -/
def Copied (dup : Bool) (form : Form) (value : Text) : Prop :=
  dup = true ∨ ∀ u, ¬ form.Means value u

/-- There are words, and a `NONE` among them is the only one or stands behind
an unknown one. -/
def ProtoClean (words : List Text) : Prop :=
  words ≠ [] ∧
    (protoNone ∈ words → words = [protoNone] ∨
      ∃ word ∈ words.takeWhile fun word => decide (word ≠ protoNone),
        ¬ Known protoNames word)

/-- The condition under which the setter takes the values of the form. -/
def Form.Clean (dup : Bool) : Form → Text → Prop
  | .ssid least, value =>
      value.length < 2 ^ 8 ∨ value.length % 2 ^ 8 < least ∨
        WLAN_SSID_MAX_LEN < value.length % 2 ^ 8
  | .key size, value => value.length < size
  | .number least most, value =>
      (value = [] → 0 < least) ∧
        (most = INT32_MAX → ∀ number, Denotes value number →
          number ≤ INT32_MAX)
  | .channel, value => ¬ Denotes value 14
  | .flags names, value => Copied dup (.flags names) value
  | .cipher, value => Copied dup .cipher value
  | .proto, value =>
      Copied dup .proto value ∧
        (dup = true → ProtoClean (words isBlank value))
  | .hwMode, _ => True

def Form.Sensible : Form → Prop
  | .key size => 0 < size
  | .number least most => 0 ≤ least ∧ least ≤ most ∧ most ≤ INT32_MAX
  | .flags names => ∀ name ∈ names, name.2 ≠ 0
  | _ => True

instance : (form : Form) → Decidable form.Sensible
  | .ssid _ => isTrue trivial
  | .key size => inferInstanceAs (Decidable (0 < size))
  | .number least most =>
      inferInstanceAs (Decidable (0 ≤ least ∧ least ≤ most ∧ most ≤ INT32_MAX))
  | .channel => isTrue trivial
  | .flags names => inferInstanceAs (Decidable (∀ name ∈ names, name.2 ≠ 0))
  | .cipher => isTrue trivial
  | .proto => isTrue trivial
  | .hwMode => isTrue trivial

/-! ### Texts and keys -/

theorem setSsid_iff (least : Nat) (value : Text) :
    (∀ u, setSsid least value = some u ↔ (Form.ssid least).Means value u) ↔
      (value.length < 2 ^ 8 ∨ value.length % 2 ^ 8 < least ∨
        WLAN_SSID_MAX_LEN < value.length % 2 ^ 8) := by
  unfold setSsid Form.Means
  dsimp only
  by_cases narrow : value.length < 2 ^ 8
  · rw [Nat.mod_eq_of_lt narrow, List.take_length]
    refine iff_of_true (fun u => ?_) (Or.inl narrow)
    by_cases fits : least ≤ value.length ∧ value.length ≤ WLAN_SSID_MAX_LEN
    · rw [if_pos fits]
      constructor
      · intro same
        exact ⟨(Option.some.inj same).symm, fits⟩
      · rintro ⟨rfl, _⟩
        rfl
    · rw [if_neg fits]
      constructor
      · intro same
        cases same
      · rintro ⟨_, fit⟩
        exact absurd fit fits
  · have long : ¬ value.length ≤ WLAN_SSID_MAX_LEN := by
      unfold WLAN_SSID_MAX_LEN
      omega
    by_cases fits : least ≤ value.length % 2 ^ 8 ∧
        value.length % 2 ^ 8 ≤ WLAN_SSID_MAX_LEN
    · rw [if_pos fits]
      apply iff_of_false
      · intro same
        exact long ((same _).mp rfl).2.2
      · omega
    · rw [if_neg fits]
      apply iff_of_true
      · intro u
        constructor
        · intro same
          cases same
        · rintro ⟨_, _, short⟩
          exact absurd short long
      · omega

theorem setKey_iff (size : Nat) (value : Text) (sensible : 0 < size) :
    (∀ u, setKey size value = some u ↔ (Form.key size).Means value u) ↔
      value.length < size := by
  unfold setKey Form.Means
  constructor
  · intro same
    exact ((same _).mp rfl).2
  · intro fits u
    rw [List.take_of_length_le (by omega)]
    constructor
    · intro same
      exact ⟨(Option.some.inj same).symm, fits⟩
    · rintro ⟨rfl, _⟩
      rfl

theorem setHwMode_iff (value : Text) (u : ConfigValue) :
    setHwMode value = some u ↔ Form.hwMode.Means value u := by
  unfold setHwMode Form.Means
  by_cases b : value = "b".toList
  · rw [if_pos b, b]
    constructor
    · intro same
      exact Or.inl ⟨rfl, (Option.some.inj same).symm⟩
    · rintro (⟨_, rfl⟩ | ⟨g, _⟩)
      · rfl
      · exact absurd g (by decide)
  · rw [if_neg b]
    by_cases g : value = "g".toList
    · rw [if_pos g]
      constructor
      · intro same
        exact Or.inr ⟨g, (Option.some.inj same).symm⟩
      · rintro (⟨is_b, _⟩ | ⟨_, rfl⟩)
        · exact absurd is_b b
        · rfl
    · rw [if_neg g]
      constructor
      · intro same
        cases same
      · rintro (⟨is_b, _⟩ | ⟨is_g, _⟩)
        · exact absurd is_b b
        · exact absurd is_g g

/-! ### Numbers -/

theorem cmdWpasParseInt_nil (min max : Int) :
    cmdWpasParseInt [] min max =
      if 0 < min ∨ max < 0 then none else some 0 := rfl

theorem cmdWpasParseInt_of_denotes (value : Text) (min max number : Int)
    (denotes : Denotes value number) :
    cmdWpasParseInt value min max =
      if Max.max INT32_MIN (Min.min number INT32_MAX) < min ∨
          max < Max.max INT32_MIN (Min.min number INT32_MAX) then none
      else some (Max.max INT32_MIN (Min.min number INT32_MAX)) := by
  unfold cmdWpasParseInt
  rw [strtol_of_denotes _ _ _ _ denotes]
  rfl

theorem cmdWpasParseInt_of_not (value : Text) (min max : Int)
    (some_ : value ≠ []) (none_ : ∀ number, ¬ Denotes value number) :
    cmdWpasParseInt value min max = none := by
  unfold cmdWpasParseInt
  dsimp only
  rw [if_pos]
  rw [Ne, strtol_end]
  rintro (empty | ⟨number, denotes⟩)
  · exact some_ empty
  · exact none_ number denotes

def TakesRange (least most tested : Int) (value : Text) : Prop :=
  ∀ u, setInt least tested value = some u ↔ InRange least most value u

theorem takesRange_nil (least most tested : Int) (from_ : 0 ≤ least)
    (below : 0 ≤ tested) :
    TakesRange least most tested [] ↔ 0 < least := by
  unfold TakesRange setInt InRange
  rw [cmdWpasParseInt_nil]
  have nothing (number : Int) := not_denotes_nil number
  by_cases positive : 0 < least
  · rw [if_pos (Or.inl positive)]
    refine iff_of_true (fun u => ?_) positive
    constructor
    · intro same
      cases same
    · rintro ⟨number, _, denotes, _⟩
      exact absurd denotes (nothing number)
  · rw [if_neg (by omega)]
    refine iff_of_false ?_ positive
    intro same
    obtain ⟨number, _, denotes, _⟩ := (same _).mp rfl
    exact nothing number denotes

/-- A literal is refused outside of the tested range, which may be wider. -/
theorem takesRange_of_denotes (least most tested : Int) (value : Text)
    (from_ : 0 ≤ least) (le : least ≤ most) (below : most ≤ tested)
    (fits : tested ≤ INT32_MAX) (number : Int)
    (denotes : Denotes value number) :
    TakesRange least most tested value ↔
      (most < number → ¬ min number INT32_MAX ≤ tested) := by
  unfold TakesRange setInt InRange
  rw [cmdWpasParseInt_of_denotes value least tested number denotes]
  have bounds : INT32_MIN < 0 := by decide
  -- the one literal that the text is
  have range (u : ConfigValue) :
      (∃ other, u = .number other ∧ Denotes value other ∧ least ≤ other ∧
          other ≤ most) ↔
        u = .number number ∧ least ≤ number ∧ number ≤ most := by
    constructor
    · rintro ⟨other, same, also, within⟩
      rw [also.unique denotes] at same within
      exact ⟨same, within⟩
    · rintro ⟨same, within⟩
      exact ⟨number, same, denotes, within⟩
  simp only [range]
  by_cases within : number ≤ most
  · refine iff_of_true (fun u => ?_) fun above => by omega
    by_cases low : least ≤ number
    · rw [if_neg (by omega), show max INT32_MIN (min number INT32_MAX) =
        number by omega]
      constructor
      · intro same
        exact ⟨(Option.some.inj same).symm, low, within⟩
      · rintro ⟨rfl, _⟩
        rfl
    · rw [if_pos (by omega)]
      constructor
      · intro same
        cases same
      · rintro ⟨_, is_low, _⟩
        exact absurd is_low low
  · by_cases above : min number INT32_MAX ≤ tested
    · rw [if_neg (by omega)]
      apply iff_of_false
      · intro same
        exact within ((same _).mp rfl).2.2
      · intro not_above
        exact not_above (by omega) above
    · rw [if_pos (by omega)]
      refine iff_of_true (fun u => ?_) fun _ => above
      constructor
      · intro same
        cases same
      · rintro ⟨_, _, is_within⟩
        exact absurd is_within within

theorem takesRange_of_not (least most tested : Int) (value : Text)
    (empty : value ≠ []) (none_ : ∀ number, ¬ Denotes value number) :
    TakesRange least most tested value := by
  intro u
  unfold setInt InRange
  rw [cmdWpasParseInt_of_not value least tested empty none_]
  constructor
  · intro same
    cases same
  · rintro ⟨number, _, denotes, _⟩
    exact absurd denotes (none_ number)

/-- A bound of the documented range that is below the one that is tested. -/
theorem setInt_iff (least most tested : Int) (value : Text) (from_ : 0 ≤ least)
    (le : least ≤ most) (below : most ≤ tested) (fits : tested ≤ INT32_MAX) :
    (∀ u, setInt least tested value = some u ↔ InRange least most value u) ↔
      (value = [] → 0 < least) ∧
        (∀ number, Denotes value number → most < number →
          ¬ min number INT32_MAX ≤ tested) := by
  change TakesRange least most tested value ↔ _
  by_cases empty : value = []
  · subst empty
    rw [takesRange_nil least most tested from_ (by omega)]
    constructor
    · intro positive
      exact ⟨fun _ => positive,
        fun number denotes => absurd denotes (not_denotes_nil number)⟩
    · intro clean
      exact clean.1 rfl
  · by_cases some_ : ∃ number, Denotes value number
    · obtain ⟨number, denotes⟩ := some_
      rw [takesRange_of_denotes least most tested value from_ le below fits
        number denotes]
      constructor
      · intro above
        refine ⟨fun is_empty => absurd is_empty empty, ?_⟩
        intro other also
        rw [also.unique denotes]
        exact above
      · intro clean
        exact clean.2 number denotes
    · have none_ := not_exists.mp some_
      refine iff_of_true
        (takesRange_of_not least most tested value empty none_) ?_
      exact ⟨fun is_empty => absurd is_empty empty,
        fun number denotes => absurd denotes (none_ number)⟩

/-! ### Lists of names -/

section Flags

variable (names : FlagNames)

theorem orFlags_cons_known (val flag : Nat) (word : Text) (later : List Text)
    (known : names.lookup word = some flag) :
    orFlags names val (word :: later) = orFlags names (val ||| flag) later := by
  unfold orFlags
  rw [List.filterMap_cons, known, List.foldl_cons]

theorem orFlags_cons_unknown (val : Nat) (word : Text) (later : List Text)
    (unknown : names.lookup word = none) :
    orFlags names val (word :: later) = orFlags names val later := by
  unfold orFlags
  rw [List.filterMap_cons, unknown]

theorem orFlags_ne_zero (val : Nat) (words : List Text) (nonzero : val ≠ 0) :
    orFlags names val words ≠ 0 := by
  induction words generalizing val with
  | nil => exact nonzero
  | cons word later ih =>
      cases known : names.lookup word with
      | none =>
          rw [orFlags_cons_unknown names val word later known]
          exact ih val nonzero
      | some flag =>
          rw [orFlags_cons_known names val flag word later known]
          apply ih
          intro zero
          exact nonzero (Nat.or_eq_zero_iff.mp zero).1

theorem lookup_ne_zero (nonzero : ∀ name ∈ names, name.2 ≠ 0) (word : Text)
    (flag : Nat) (known : names.lookup word = some flag) : flag ≠ 0 := by
  induction names with
  | nil => cases known
  | cons name later ih =>
      rw [List.lookup_cons] at known
      split at known
      · rw [← Option.some.inj known]
        exact nonzero name List.mem_cons_self
      · exact ih (fun other member =>
          nonzero other (List.mem_cons_of_mem _ member)) known

theorem orFlags_known (nonzero : ∀ name ∈ names, name.2 ≠ 0) (val : Nat)
    (words : List Text) (some_ : words ≠ [])
    (known : ∀ word ∈ words, Known names word) :
    orFlags names val words ≠ 0 := by
  cases words with
  | nil => exact absurd rfl some_
  | cons word later =>
      obtain ⟨flag, found⟩ :=
        Option.isSome_iff_exists.mp (known word List.mem_cons_self)
      rw [orFlags_cons_known names val flag word later found]
      apply orFlags_ne_zero
      intro zero
      exact lookup_ne_zero names nonzero word flag found
        (Nat.or_eq_zero_iff.mp zero).2

def unknownWords (words : List Text) : Nat :=
  words.countP fun word => !(names.lookup word).isSome

theorem unknownWords_eq_zero (words : List Text) :
    unknownWords names words = 0 ↔ ∀ word ∈ words, Known names word := by
  unfold unknownWords Known
  rw [List.countP_eq_zero]
  simp

theorem foldlM_flagWord {ρ : Type} (words : List Text) (val errors : Nat) :
    words.foldlM (flagWord (ρ := ρ) names) (val, errors) =
      .ok (orFlags names val words, errors + unknownWords names words) := by
  induction words generalizing val errors with
  | nil => rfl
  | cons word later ih =>
      rw [List.foldlM_cons]
      unfold flagWord
      dsimp only
      cases known : names.lookup word with
      | none =>
          change later.foldlM (flagWord (ρ := ρ) names) (val, errors + 1) = _
          rw [ih, orFlags_cons_unknown names val word later known]
          unfold unknownWords
          rw [List.countP_cons_of_pos (by rw [known]; rfl), Nat.add_right_comm,
            Nat.add_assoc]
      | some flag =>
          change later.foldlM (flagWord (ρ := ρ) names)
            (val ||| flag, errors) = _
          rw [ih, orFlags_cons_known names val flag word later known]
          unfold unknownWords
          rw [List.countP_cons_of_neg (by simp [known])]

/-- What a setter of flags takes from a list that is only known names. -/
theorem setFlags_known (least : Int) (le : least ≤ 1) (val : Nat)
    (nonzero : val ≠ 0) : setFlags least val = some (.number val) := by
  unfold setFlags
  exact if_pos (by omega)

theorem setFlags_failed (least : Int) (positive : 0 ≤ least) :
    setFlags least (-1) = none := if_neg (by omega)

theorem parseFlags_lists (nonzero : ∀ name ∈ names, name.2 ≠ 0)
    (value : Text) (u : ConfigValue) :
    setFlags 1 (parseFlags names true value) = some u ↔
      Lists names (words isBlank value) u := by
  unfold parseFlags Lists
  rw [if_neg (by decide), overWords_eq isBlank _ _ _ _ (Nat.lt_succ_self _),
    foldlM_flagWord]
  dsimp only
  rw [Nat.zero_add]
  by_cases known : ∀ word ∈ words isBlank value, Known names word
  · rw [(unknownWords_eq_zero names _).mpr known]
    by_cases some_ : words isBlank value = []
    · rw [some_]
      apply iff_of_false
      · exact nofun
      · exact fun lists => lists.1 rfl
    · have set := orFlags_known names nonzero 0 _ some_ known
      rw [if_neg set, if_neg (not_not.mpr rfl),
        setFlags_known 1 le_rfl _ set]
      constructor
      · intro same
        exact ⟨some_, known, (Option.some.inj same).symm⟩
      · rintro ⟨_, _, rfl⟩
        rfl
  · have unknown := (unknownWords_eq_zero names _).not.mpr known
    rw [if_pos (by split <;> omega), setFlags_failed 1 (by decide)]
    apply iff_of_false
    · exact nofun
    · exact fun lists => known lists.2.1

theorem foldlM_cipherWord (words : List Text) (val : Nat) :
    words.foldlM cipherWord val =
      if ∀ word ∈ words, Known cipherNames word then
        .ok (orFlags cipherNames val words)
      else .error (-1) := by
  induction words generalizing val with
  | nil => rfl
  | cons word later ih =>
      rw [List.foldlM_cons]
      unfold cipherWord
      cases known : cipherNames.lookup word with
      | none =>
          rw [if_neg]
          · rfl
          · intro all
            have here := all word List.mem_cons_self
            unfold Known at here
            rw [known] at here
            cases here
      | some flag =>
          change later.foldlM cipherWord (val ||| flag) = _
          have here : Known cipherNames word := by
            unfold Known
            rw [known]
            rfl
          rw [ih, orFlags_cons_known _ val flag word later known]
          simp only [List.forall_mem_cons, here, true_and]

theorem cipher_lists (value : Text) (u : ConfigValue) :
    setFlags 1 (cmdWpasParseCipher true value) = some u ↔
      Lists cipherNames (words isBlank value) u := by
  have nonzero : ∀ name ∈ cipherNames, name.2 ≠ 0 := by decide
  unfold cmdWpasParseCipher Lists
  rw [if_neg (by decide), overWords_eq isBlank _ _ _ _ (Nat.lt_succ_self _),
    foldlM_cipherWord]
  by_cases known : ∀ word ∈ words isBlank value, Known cipherNames word
  · rw [if_pos known]
    by_cases some_ : words isBlank value = []
    · rw [some_]
      apply iff_of_false
      · exact nofun
      · exact fun lists => lists.1 rfl
    · have set := orFlags_known cipherNames nonzero 0 _ some_ known
      dsimp only
      rw [setFlags_known 1 le_rfl _ set]
      constructor
      · intro same
        exact ⟨some_, known, (Option.some.inj same).symm⟩
      · rintro ⟨_, _, rfl⟩
        rfl
  · rw [if_neg known]
    dsimp only
    rw [setFlags_failed 1 (by decide)]
    apply iff_of_false
    · exact nofun
    · exact fun lists => known lists.2.1

end Flags

/-! ### Protocols -/

theorem unknownWords_cons (names : FlagNames) (word : Text)
    (later : List Text) :
    unknownWords names (word :: later) =
      unknownWords names later + if Known names word then 0 else 1 := by
  unfold unknownWords
  rw [List.countP_cons]
  by_cases known : Known names word
  · have found : (names.lookup word).isSome = true := known
    rw [if_pos known, if_neg (by simp [found])]
  · have missing : (names.lookup word).isSome = false :=
      Bool.eq_false_iff.mpr known
    rw [if_neg known, if_pos (by simp [missing])]

/-- The words in front of the first `NONE`. -/
def beforeNone (words : List Text) : List Text :=
  words.takeWhile fun word => decide (word ≠ protoNone)

theorem foldlM_protoWord (words : List Text) (val errors : Nat) :
    words.foldlM protoWord (val, errors) =
      if protoNone ∈ words then
        .error (0, errors + unknownWords protoNames (beforeNone words))
      else
        .ok (orFlags protoNames val words,
          errors + unknownWords protoNames words) := by
  induction words generalizing val errors with
  | nil => rfl
  | cons word later ih =>
      rw [List.foldlM_cons]
      by_cases none_ : word = protoNone
      · have step : protoWord (val, errors) word = .error (0, errors) :=
          if_pos none_
        rw [step, if_pos (none_ ▸ List.mem_cons_self)]
        unfold beforeNone
        rw [List.takeWhile_cons_of_neg (by simp [none_])]
        rfl
      · have front : beforeNone (word :: later) = word :: beforeNone later :=
          List.takeWhile_cons_of_pos (decide_eq_true none_)
        have members : protoNone ∈ word :: later ↔ protoNone ∈ later := by
          rw [List.mem_cons, or_iff_right (Ne.symm none_)]
        have step : protoWord (val, errors) word =
            flagWord protoNames (val, errors) word := if_neg none_
        rw [step, front, unknownWords_cons, unknownWords_cons]
        simp only [members]
        by_cases known : Known protoNames word
        · obtain ⟨flag, found⟩ := Option.isSome_iff_exists.mp known
          have flagged : flagWord (ρ := Nat × Nat) protoNames (val, errors)
              word = .ok (val ||| flag, errors) := by
            unfold flagWord
            rw [found]
          rw [flagged, if_pos known,
            orFlags_cons_known _ val flag word later found]
          exact ih (val ||| flag) errors
        · have found : protoNames.lookup word = none :=
            Option.not_isSome_iff_eq_none.mp known
          have flagged : flagWord (ρ := Nat × Nat) protoNames (val, errors)
              word = .ok (val, errors + 1) := by
            unfold flagWord
            rw [found]
          rw [flagged, if_neg known,
            orFlags_cons_unknown _ val word later found]
          refine (ih val (errors + 1)).trans ?_
          have turn (count : Nat) : errors + 1 + count = errors + (count + 1) := by
            omega
          rw [turn, turn]

theorem not_known_protoNone : ¬ Known protoNames protoNone := by decide

theorem setFlags_counted (errors flags : Nat) (u : ConfigValue) :
    setFlags 0 (if errors ≠ 0 then -1 else (flags : Int)) = some u ↔
      errors = 0 ∧ u = .number flags := by
  by_cases none_ : errors = 0
  · rw [if_neg (not_not.mpr none_), and_iff_right none_]
    have set : setFlags 0 (flags : Int) = some (.number flags) :=
      if_pos (Int.natCast_nonneg _)
    rw [set, Option.some.injEq]
    exact eq_comm
  · rw [if_pos none_, setFlags_failed 0 le_rfl]
    exact iff_of_false nofun fun both => none_ both.1

theorem forall_number_iff (left right : Prop) (flags : Int) :
    (∀ u, left ∧ u = ConfigValue.number flags ↔ right ∧ u = .number flags) ↔
      (left ↔ right) := by
  constructor
  · intro same
    have here := same (.number flags)
    rwa [and_iff_left rfl, and_iff_left rfl] at here
  · intro same u
    rw [same]

theorem proto_means (value : Text) :
    (∀ u, setFlags 0 (cmdWpasParseProto true value) = some u ↔
        Form.proto.Means value u) ↔
      ProtoClean (words isBlank value) := by
  change (∀ u, setFlags 0 (cmdWpasParseProto true value) = some u ↔
    (words isBlank value = [protoNone] ∧ u = .number 0 ∨
      Lists protoNames (words isBlank value) u)) ↔ _
  unfold cmdWpasParseProto ProtoClean Lists
  rw [if_neg (by decide), overWords_eq isBlank _ _ _ _ (Nat.lt_succ_self _),
    foldlM_protoWord]
  generalize Words.words isBlank value = words
  by_cases none_ : protoNone ∈ words
  · -- only the words before it are looked at, and no list has it
    have unlisted : ¬ ∀ word ∈ words, Known protoNames word :=
      fun known => not_known_protoNone (known _ none_)
    have alone (single : words = [protoNone]) :
        ∀ word ∈ beforeNone words, Known protoNames word := by
      rw [single]
      unfold beforeNone
      rw [List.takeWhile_cons_of_neg (by simp)]
      exact nofun
    rw [if_pos none_]
    dsimp only
    rw [Nat.zero_add, and_iff_right (List.ne_nil_of_mem none_)]
    simp only [setFlags_counted, unknownWords_eq_zero, unlisted, false_and,
      and_false, or_false, none_, forall_const]
    refine (forall_number_iff _ _ 0).trans ?_
    constructor
    · intro same
      by_cases known : ∀ word ∈ beforeNone words, Known protoNames word
      · exact .inl (same.mp known)
      · obtain ⟨word, unknown⟩ := not_forall.mp known
        exact .inr ⟨word, Classical.not_imp.mp unknown⟩
    · rintro (single | ⟨word, member, unknown⟩)
      · exact iff_of_true (alone single) single
      · have unread : ¬ ∀ word ∈ beforeNone words, Known protoNames word :=
          fun known => unknown (known word member)
        exact iff_of_false unread fun single => unread (alone single)
  · have other : words ≠ [protoNone] := by
      rintro rfl
      exact none_ List.mem_cons_self
    rw [if_neg none_]
    dsimp only
    rw [Nat.zero_add]
    simp only [setFlags_counted, unknownWords_eq_zero, other, false_and,
      false_or, none_, false_implies, and_true, ← and_assoc]
    refine (forall_number_iff _ _ _).trans ?_
    constructor
    · intro same empty
      rw [empty] at same
      exact (same.mp nofun).1 rfl
    · intro some_
      exact (and_iff_right some_).symm

/-! ### Every form -/

theorem copied_iff (form : Form) (value : Text)
    (failed : form.set false value = none)
    (taken : ∀ u, form.set true value = some u ↔ form.Means value u)
    (dup : Bool) :
    (∀ u, form.set dup value = some u ↔ form.Means value u) ↔
      Copied dup form value := by
  cases dup with
  | true => exact iff_of_true taken (Or.inl rfl)
  | false =>
      rw [failed]
      constructor
      · intro same
        exact Or.inr fun u means => nomatch (same u).mpr means
      · rintro (copied | none_) u
        · cases copied
        · exact iff_of_false nofun (none_ u)

/-- A setter takes exactly the texts of its form, with what they denote, if and
only if the text is clean. -/
theorem Form.set_iff (dup : Bool) (form : Form) (value : Text)
    (sensible : form.Sensible) :
    (∀ u, form.set dup value = some u ↔ form.Means value u) ↔
      form.Clean dup value := by
  cases form with
  | ssid least => exact setSsid_iff least value
  | key size => exact setKey_iff size value sensible
  | number least most =>
      obtain ⟨from_, le, fits⟩ := sensible
      refine (setInt_iff least most most value from_ le le_rfl fits).trans ?_
      refine and_congr_right fun _ => ?_
      constructor
      · intro clean largest number denotes
        by_contra above
        exact clean number denotes (by omega) (by omega)
      · intro clean number denotes above within
        have largest : most = INT32_MAX := by omega
        have small := clean largest number denotes
        omega
  | channel =>
      refine (setInt_iff 1 13 14 value (by decide) (by decide) (by decide)
        (by decide)).trans ?_
      have wide : (14 : Int) < INT32_MAX := by decide
      constructor
      · rintro ⟨_, clean⟩ denotes
        exact clean 14 denotes (by decide) (by omega)
      · intro clean
        refine ⟨fun _ => by decide, ?_⟩
        intro number denotes above within
        have same : number = 14 := by omega
        exact clean (same ▸ denotes)
  | flags names =>
      apply copied_iff
      · exact setFlags_failed 1 (by decide)
      · exact parseFlags_lists names sensible value
  | cipher =>
      apply copied_iff
      · exact setFlags_failed 1 (by decide)
      · exact cipher_lists value
  | proto =>
      cases dup with
      | true =>
          refine (proto_means value).trans ?_
          exact ⟨fun clean => ⟨Or.inl rfl, fun _ => clean⟩,
            fun clean => clean.2 rfl⟩
      | false =>
          have failed : Form.proto.set false value = none :=
            setFlags_failed 0 le_rfl
          rw [failed]
          constructor
          · intro same
            exact ⟨Or.inr fun u means => (nomatch (same u).mpr means), nofun⟩
          · rintro ⟨copied | none_, _⟩ u
            · cases copied
            · exact iff_of_false nofun (none_ u)
  | hwMode => exact iff_of_true (setHwMode_iff value) trivial

end XR872.Wlan
