/-
What a line makes the driver do.

A line to set a configuration is a field, a blank and a value. A line of the
station is a keyword and its arguments, and is answered by the operation of its
keyword.
-/

import XR872.Wlan.Values

namespace XR872.Wlan

open Literals
open Words

/-! ### Fields -/

structure Field (φ : Type) where
  name : Text
  field : φ
  form : Form

def staFields : List (Field StaField) :=
  [{ name := "ssid".toList, field := .ssid, form := .ssid 0 },
    { name := "psk".toList, field := .psk, form := .key pskSize },
    { name := "wep_key0".toList, field := .wepKey0, form := .key wepKeySize },
    { name := "wep_key1".toList, field := .wepKey1, form := .key wepKeySize },
    { name := "wep_key2".toList, field := .wepKey2, form := .key wepKeySize },
    { name := "wep_key3".toList, field := .wepKey3, form := .key wepKeySize },
    { name := "wep_key_index".toList, field := .wepKeyIndex,
      form := .number 0 3 },
    { name := "key_mgmt".toList, field := .keyMgmt,
      form := .flags keyMgmtNames },
    { name := "pairwise".toList, field := .pairwiseCipher, form := .cipher },
    { name := "group".toList, field := .groupCipher, form := .cipher },
    { name := "proto".toList, field := .proto, form := .proto },
    { name := "auth_alg".toList, field := .authAlg,
      form := .flags authAlgNames },
    { name := "ptk_rekey".toList, field := .wpaPtkRekey,
      form := .number 0 INT32_MAX },
    { name := "scan_ssid".toList, field := .scanSsid, form := .number 0 1 }]

def apFields : List (Field ApField) :=
  [{ name := "ssid".toList, field := .ssid, form := .ssid 1 },
    { name := "psk".toList, field := .psk, form := .key pskSize },
    { name := "key_mgmt".toList, field := .keyMgmt,
      form := .flags keyMgmtNames },
    { name := "wpa".toList, field := .wpaCipher, form := .cipher },
    { name := "rsn".toList, field := .rsnCipher, form := .cipher },
    { name := "proto".toList, field := .proto, form := .proto },
    { name := "auth_alg".toList, field := .authAlg,
      form := .flags authAlgNames },
    { name := "group_rekey".toList, field := .groupRekey,
      form := .number 0 INT32_MAX },
    { name := "strict_rekey".toList, field := .strictRekey,
      form := .number 0 1 },
    { name := "gmk_rekey".toList, field := .gmkRekey,
      form := .number 0 INT32_MAX },
    { name := "ptk_rekey".toList, field := .ptkRekey,
      form := .number 0 INT32_MAX },
    { name := "hw_mode".toList, field := .hwMode, form := .hwMode },
    { name := "80211n".toList, field := .ieee80211n, form := .number 0 1 },
    { name := "channel".toList, field := .channel, form := .channel },
    { name := "beacon_int".toList, field := .beaconInt,
      form := .number 15 65535 },
    { name := "dtim".toList, field := .dtim, form := .number 1 255 },
    { name := "max_num_sta".toList, field := .maxNumSta,
      form := .number 0 INT32_MAX }]

section Fields

variable {φ : Type} (fields : List (Field φ)) (dup : Bool)

/-- A field of the table with a value of its form. -/
def Sets (cmd : Text) (config : Config φ) : Prop :=
  ∃ entry ∈ fields, ∃ value, cmd = entry.name ++ ' ' :: value ∧
    config.field = entry.field ∧ entry.form.Means value config.u

def SetClean (cmd : Text) : Prop :=
  ∀ entry ∈ fields, ∀ value, cmd = entry.name ++ ' ' :: value →
    entry.form.Clean dup value

def setField : List (Field φ) → Text → Text → Option (Config φ)
  | [], _, _ => none
  | entry :: later, field, value =>
      if field = entry.name then
        configOf entry.field (entry.form.set dup value)
      else setField later field value

structure Tabled : Prop where
  apart : (fields.map Field.name).Nodup
  whole : ∀ entry ∈ fields, ' ' ∉ entry.name
  sensible : ∀ entry ∈ fields, entry.form.Sensible

theorem setField_of_mem (apart : (fields.map Field.name).Nodup)
    (entry : Field φ) (member : entry ∈ fields) (value : Text) :
    setField dup fields entry.name value =
      configOf entry.field (entry.form.set dup value) := by
  induction fields with
  | nil => cases member
  | cons first later ih =>
      obtain ⟨new, rest⟩ := List.nodup_cons.mp apart
      rcases List.mem_cons.mp member with rfl | behind
      · exact if_pos rfl
      · have other : entry.name ≠ first.name := by
          intro same
          exact new (same ▸ List.mem_map_of_mem behind)
        exact (if_neg other).trans (ih rest behind)

theorem setField_of_not (field value : Text)
    (none_ : ∀ entry ∈ fields, field ≠ entry.name) :
    setField dup fields field value = none := by
  induction fields with
  | nil => rfl
  | cons first later ih =>
      exact (if_neg (none_ first List.mem_cons_self)).trans
        (ih fun entry member => none_ entry (List.mem_cons_of_mem _ member))

end Fields

theorem splitField_iff (cmd field value : Text) :
    splitField cmd = some (field, value) ↔
      cmd = field ++ ' ' :: value ∧ ' ' ∉ field := by
  have before : ∀ char ∈ cmd.takeWhile (fun char => decide (char ≠ ' ')),
      char ≠ ' ' :=
    fun char member => of_decide_eq_true
      (List.mem_takeWhile_imp (p := fun char => decide (char ≠ ' ')) member)
  unfold splitField
  constructor
  · intro split
    cases behind : cmd.dropWhile (fun char => decide (char ≠ ' ')) with
    | nil =>
        rw [behind] at split
        cases split
    | cons blank rest =>
        rw [behind] at split
        obtain ⟨rfl, rfl⟩ := Prod.mk.inj (Option.some.inj split)
        have blanks : blank = ' ' := by
          have head := List.head?_dropWhile_not
            (fun char => decide (char ≠ ' ')) cmd
          rw [behind] at head
          simpa using head
        refine ⟨?_, fun member => before ' ' member rfl⟩
        rw [blanks] at behind
        rw [← behind]
        exact List.takeWhile_append_dropWhile.symm
  · rintro ⟨rfl, whole⟩
    have all : ∀ char ∈ field, decide (char ≠ ' ') = true := by
      intro char member
      rw [decide_eq_true_iff]
      rintro rfl
      exact whole member
    rw [List.dropWhile_append_of_pos all, List.takeWhile_append_of_pos all,
      List.dropWhile_cons_of_neg (by decide),
      List.takeWhile_cons_of_neg (by decide), List.append_nil]

theorem cmdWlanStaSet_eq (dup : Bool) (cmd : Text) :
    cmdWlanStaSet dup cmd =
      (splitField cmd).bind fun (field, value) =>
        setField dup staFields field value := by
  unfold cmdWlanStaSet
  cases splitField cmd with
  | none => rfl
  | some split => rfl

theorem cmdWlanApSet_eq (dup : Bool) (cmd : Text) :
    cmdWlanApSet dup cmd =
      (splitField cmd).bind fun (field, value) =>
        setField dup apFields field value := by
  unfold cmdWlanApSet
  cases splitField cmd with
  | none => rfl
  | some split => rfl

section Fields

variable {φ : Type} (fields : List (Field φ)) (dup : Bool)

theorem split_unique (first second : Field φ) (value other : Text)
    (left : ' ' ∉ first.name) (right : ' ' ∉ second.name)
    (same : first.name ++ ' ' :: value = second.name ++ ' ' :: other) :
    first.name = second.name ∧ value = other := by
  have splits := (splitField_iff _ _ value).mpr ⟨rfl, left⟩
  rw [same, (splitField_iff _ _ other).mpr ⟨rfl, right⟩] at splits
  obtain ⟨names, values⟩ := Prod.mk.inj (Option.some.inj splits)
  exact ⟨names.symm, values.symm⟩

theorem set_iff (tabled : Tabled fields) (cmd : Text) :
    (∀ config,
        ((splitField cmd).bind fun (field, value) =>
          setField dup fields field value) = some config ↔
            Sets fields cmd config) ↔
      SetClean fields dup cmd := by
  by_cases named : ∃ entry ∈ fields, ∃ value, cmd = entry.name ++ ' ' :: value
  · obtain ⟨entry, member, value, rfl⟩ := named
    have whole := tabled.whole entry member
    have only : ∀ other ∈ fields, ∀ text,
        entry.name ++ ' ' :: value = other.name ++ ' ' :: text →
          other = entry ∧ text = value := by
      intro other also text same
      obtain ⟨names, values⟩ := split_unique entry other value text whole
        (tabled.whole other also) same
      refine ⟨?_, values.symm⟩
      exact (List.inj_on_of_nodup_map tabled.apart member also names).symm
    rw [(splitField_iff _ _ _).mpr ⟨rfl, whole⟩, Option.bind_some]
    dsimp only
    rw [setField_of_mem fields dup tabled.apart entry member]
    have sets (config : Config φ) :
        Sets fields (entry.name ++ ' ' :: value) config ↔
          config.field = entry.field ∧ entry.form.Means value config.u := by
      constructor
      · rintro ⟨other, also, text, same, means⟩
        obtain ⟨rfl, rfl⟩ := only other also text same
        exact means
      · intro means
        exact ⟨entry, member, value, rfl, means⟩
    have clean : SetClean fields dup (entry.name ++ ' ' :: value) ↔
        entry.form.Clean dup value := by
      constructor
      · intro cleans
        exact cleans entry member value rfl
      · intro cleans other also text same
        obtain ⟨rfl, rfl⟩ := only other also text same
        exact cleans
    rw [clean, ← Form.set_iff dup entry.form value
      (tabled.sensible entry member)]
    unfold configOf
    constructor
    · intro same u
      have here := same { field := entry.field, u := u }
      rw [sets, Option.map_eq_some_iff] at here
      constructor
      · intro taken
        exact (here.mp ⟨u, taken, rfl⟩).2
      · intro means
        obtain ⟨other, taken, equal⟩ := here.mpr ⟨rfl, means⟩
        cases equal
        exact taken
    · intro same config
      rw [sets, Option.map_eq_some_iff]
      constructor
      · rintro ⟨u, taken, rfl⟩
        exact ⟨rfl, (same u).mp taken⟩
      · rintro ⟨field, means⟩
        refine ⟨config.u, (same config.u).mpr means, ?_⟩
        rw [← field]
  · have nothing : ((splitField cmd).bind fun (field, value) =>
        setField dup fields field value) = none := by
      cases split : splitField cmd with
      | none => rfl
      | some found =>
          obtain ⟨field, value⟩ := found
          apply setField_of_not
          rintro entry member rfl
          have same := ((splitField_iff _ _ _).mp split).1
          exact named ⟨entry, member, value, same⟩
    rw [nothing]
    apply iff_of_true
    · intro config
      apply iff_of_false nofun
      rintro ⟨entry, member, value, same, _⟩
      exact named ⟨entry, member, value, same⟩
    · intro entry member value same
      exact absurd ⟨entry, member, value, same⟩ named

end Fields

theorem tabled_staFields : Tabled staFields := by
  exact {
    apart := by decide
    whole := by decide
    sensible := by decide }

theorem tabled_apFields : Tabled apFields := by
  exact {
    apart := by decide
    whole := by decide
    sensible := by decide }

/-! ### Keywords -/

inductive Keyword where
  | config
  | set
  | get
  | enable
  | disable
  | scanOnce
  | scanResult
  | scanInterval
  | bssMaxCount
  | bssFlush
  | connect
  | disconnect
  | state
  | ap
  | genpsk
  | wpsPbc
  | wpsPinGet
  | wpsPinSet
  | stop
  | start
deriving DecidableEq

/-- The line is the keyword, or begins with it where there are arguments. -/
def Carries (cmd : Text) : Keyword → Prop
  | .config => startsWith "config " cmd = true
  | .set => startsWith "set " cmd = true
  | .get => startsWith "get " cmd = true
  | .enable => cmd = "enable".toList
  | .disable => cmd = "disable".toList
  | .scanOnce => cmd = "scan once".toList
  | .scanResult => startsWith "scan result " cmd = true
  | .scanInterval => startsWith "scan interval " cmd = true
  | .bssMaxCount => startsWith "bss max count " cmd = true
  | .bssFlush => startsWith "bss flush " cmd = true
  | .connect => cmd = "connect".toList
  | .disconnect => cmd = "disconnect".toList
  | .state => cmd = "state".toList
  | .ap => cmd = "ap".toList
  | .genpsk => startsWith "genpsk " cmd = true
  | .wpsPbc => cmd = "wps pbc".toList
  | .wpsPinGet => cmd = "wps pin".toList
  | .wpsPinSet => startsWith "wps pin " cmd = true
  | .stop => cmd = "stop".toList
  | .start => cmd = "start".toList

def StaCall.keyword : StaCall → Keyword
  | .set _ _ => .config
  | .setConfig _ => .set
  | .getConfig _ => .get
  | .enable => .enable
  | .disable => .disable
  | .scanOnce => .scanOnce
  | .scanResult _ => .scanResult
  | .scanInterval _ => .scanInterval
  | .bssMaxCount _ => .bssMaxCount
  | .bssFlush _ => .bssFlush
  | .connect => .connect
  | .disconnect => .disconnect
  | .state => .state
  | .apInfo => .ap
  | .genPsk _ => .genpsk
  | .wpsPbc => .wpsPbc
  | .wpsPinGet => .wpsPinGet
  | .wpsPinSet _ => .wpsPinSet
  | .stop => .stop
  | .start => .start

def Performs (keyword : Keyword) (answer : StaAnswer) : Prop :=
  answer ≠ .unknown ∧ ∀ call, answer = .called call → call.keyword = keyword

theorem performs_called (call : StaCall) :
    Performs call.keyword (.called call) := by
  refine ⟨nofun, ?_⟩
  rintro other ⟨⟩
  rfl

theorem performs_invalidArg (keyword : Keyword) :
    Performs keyword .invalidArg := ⟨nofun, nofun⟩

theorem performs_failed (keyword : Keyword) : Performs keyword .failed :=
  ⟨nofun, nofun⟩

theorem performs_intAnswer (keyword : Keyword) (val : Option Int)
    (call : Int → StaCall) (same : ∀ val, (call val).keyword = keyword) :
    Performs keyword (intAnswer val call) := by
  cases val with
  | none => exact performs_invalidArg keyword
  | some val =>
      rw [← same val]
      exact performs_called (call val)

theorem startsWith_iff (keyword : String) (cmd : Text) :
    startsWith keyword cmd = true ↔ ∃ rest, cmd = keyword.toList ++ rest := by
  unfold startsWith
  rw [List.isPrefixOf_iff_prefix]
  constructor
  · rintro ⟨rest, same⟩
    exact ⟨rest, same.symm⟩
  · rintro ⟨rest, same⟩
    exact ⟨rest, same.symm⟩

section Lines

variable (env : StaEnvironment) (cmd : Text)

theorem cmdWlanStaExec_performs (keyword : Keyword)
    (carries : Carries cmd keyword) :
    Performs keyword (cmdWlanStaExec env cmd) := by
  cases keyword with
  | config =>
      obtain ⟨rest, rfl⟩ := (startsWith_iff _ _).mp carries
      rw [cmdWlanStaExec_config]
      cases cmdParseArgv 2 rest with
      | nil => exact performs_invalidArg _
      | cons ssid psk => exact performs_called (.set ssid psk.head?)
  | set =>
      obtain ⟨rest, rfl⟩ := (startsWith_iff _ _).mp carries
      rw [cmdWlanStaExec_set]
      cases cmdWlanStaSet env.dup rest with
      | none => exact performs_invalidArg _
      | some config => exact performs_called (.setConfig config)
  | get =>
      obtain ⟨rest, rfl⟩ := (startsWith_iff _ _).mp carries
      rw [cmdWlanStaExec_get]
      cases staFieldNames.lookup rest with
      | none => exact performs_invalidArg _
      | some field => exact performs_called (.getConfig field)
  | enable =>
      rw [carries]
      exact performs_called .enable
  | disable =>
      rw [carries]
      exact performs_called .disable
  | scanOnce =>
      rw [carries]
      exact performs_called .scanOnce
  | scanResult =>
      obtain ⟨rest, rfl⟩ := (startsWith_iff _ _).mp carries
      rw [cmdWlanStaExec_scanResult]
      cases cmdWpasParseInt rest 1 CMD_WLAN_MAX_BSS_CNT with
      | none => exact performs_invalidArg _
      | some size =>
          dsimp only
          split
          · exact performs_called (.scanResult size)
          · exact performs_failed _
  | scanInterval =>
      obtain ⟨rest, rfl⟩ := (startsWith_iff _ _).mp carries
      exact performs_intAnswer _ (cmdWpasParseInt rest 0 INT32_MAX)
        .scanInterval fun _ => rfl
  | bssMaxCount =>
      obtain ⟨rest, rfl⟩ := (startsWith_iff _ _).mp carries
      exact performs_intAnswer _ (cmdWpasParseInt rest 1 CMD_WLAN_MAX_BSS_CNT)
        .bssMaxCount fun _ => rfl
  | bssFlush =>
      obtain ⟨rest, rfl⟩ := (startsWith_iff _ _).mp carries
      exact performs_intAnswer _ (cmdWpasParseInt rest 0 INT32_MAX) .bssFlush
        fun _ => rfl
  | connect =>
      rw [carries]
      exact performs_called .connect
  | disconnect =>
      rw [carries]
      exact performs_called .disconnect
  | state =>
      rw [carries]
      exact performs_called .state
  | ap =>
      rw [carries]
      change Performs _ (if env.malloc then .called .apInfo else .failed)
      split
      · exact performs_called .apInfo
      · exact performs_failed _
  | genpsk =>
      obtain ⟨rest, rfl⟩ := (startsWith_iff _ _).mp carries
      change Performs _ (genPskAnswer (cmdParseArgv 2 rest))
      unfold genPskAnswer
      split
      · exact performs_called (.genPsk _)
      · exact performs_invalidArg _
  | wpsPbc =>
      rw [carries]
      exact performs_called .wpsPbc
  | wpsPinGet =>
      rw [carries]
      exact performs_called .wpsPinGet
  | wpsPinSet =>
      obtain ⟨rest, rfl⟩ := (startsWith_iff _ _).mp carries
      change Performs _ (if rest.length ≠ 8 then .invalidArg
        else .called (.wpsPinSet rest))
      split
      · exact performs_invalidArg _
      · exact performs_called (.wpsPinSet rest)
  | stop =>
      rw [carries]
      exact performs_called .stop
  | start =>
      rw [carries]
      change Performs _ (if env.sysinfo then .called .start else .failed)
      split
      · exact performs_called .start
      · exact performs_failed _

theorem cmdWlanStaExec_of_not (none_ : ∀ keyword, ¬ Carries cmd keyword) :
    cmdWlanStaExec env cmd =
      if cmd.length = 7 then .called .wpsPinGet else .unknown := by
  unfold cmdWlanStaExec
  refine (if_neg (none_ .config)).trans ?_
  refine (if_neg (none_ .set)).trans ?_
  refine (if_neg (none_ .get)).trans ?_
  refine (if_neg (none_ .enable)).trans ?_
  refine (if_neg (none_ .disable)).trans ?_
  refine (if_neg (none_ .scanOnce)).trans ?_
  refine (if_neg (none_ .scanResult)).trans ?_
  refine (if_neg (none_ .scanInterval)).trans ?_
  refine (if_neg (none_ .bssMaxCount)).trans ?_
  refine (if_neg (none_ .bssFlush)).trans ?_
  refine (if_neg (none_ .connect)).trans ?_
  refine (if_neg (none_ .disconnect)).trans ?_
  refine (if_neg (none_ .state)).trans ?_
  refine (if_neg (none_ .ap)).trans ?_
  refine (if_neg (none_ .genpsk)).trans ?_
  refine (if_neg (none_ .wpsPbc)).trans ?_
  by_cases seven : cmd.length = 7
  · rw [if_pos (Or.inl seven), if_pos seven]
  · refine (if_neg (not_or.mpr ⟨seven, none_ .wpsPinGet⟩)).trans ?_
    refine (if_neg (none_ .wpsPinSet)).trans ?_
    refine (if_neg (none_ .stop)).trans ?_
    rw [if_neg seven]
    exact if_neg (none_ .start)

/-! ### The promises -/

/-- Only the operation of a keyword that the line carries is performed, and a
line without one is unknown. -/
structure KeywordPromise : Prop where
  carried : ∀ call, cmdWlanStaExec env cmd = .called call →
    Carries cmd call.keyword
  unknown : cmdWlanStaExec env cmd = .unknown ↔
    ∀ keyword, ¬ Carries cmd keyword

/-- A PSK is generated from the two words of the line, both complete and within
their arrays. -/
def GenPskPromise : Prop :=
  ∀ param, cmdWlanStaExec env cmd = .called (.genPsk param) →
    words isBlank (cmd.drop 7) = [param.ssid, param.passphrase] ∧
      param.ssidLen = param.ssid.length ∧
      param.ssid.length ≤ WLAN_SSID_MAX_LEN ∧
      param.passphrase.length < passphraseSize

/-- A configuration is set exactly as the fields want it. -/
def SetPromise : Prop :=
  ∀ text, cmd = "set ".toList ++ text → ∀ config,
    cmdWlanStaExec env cmd = .called (.setConfig config) ↔
      Sets staFields text config

def GenPskClean : Prop :=
  ∀ text, cmd = "genpsk ".toList ++ text →
    (words isBlank text).length < 2 ∨
      ∃ ssid passphrase, words isBlank text = [ssid, passphrase] ∧
        ssid.length ≤ WLAN_SSID_MAX_LEN ∧ passphrase.length < passphraseSize

theorem keywordPromise_iff :
    KeywordPromise env cmd ↔
      (cmd.length = 7 → ∃ keyword, Carries cmd keyword) := by
  by_cases named : ∃ keyword, Carries cmd keyword
  · refine iff_of_true ?_ fun _ => named
    obtain ⟨keyword, carries⟩ := named
    obtain ⟨known, performs⟩ :=
      cmdWlanStaExec_performs env cmd keyword carries
    constructor
    · intro call called
      rw [performs call called]
      exact carries
    · exact iff_of_false known fun none_ => none_ keyword carries
  · have none_ := not_exists.mp named
    have answered := cmdWlanStaExec_of_not env cmd none_
    by_cases seven : cmd.length = 7
    · rw [if_pos seven] at answered
      apply iff_of_false
      · intro promise
        exact none_ _ (promise.carried _ answered)
      · intro clean
        exact named (clean seven)
    · rw [if_neg seven] at answered
      apply iff_of_true
      · constructor
        · intro call called
          rw [answered] at called
          cases called
        · exact iff_of_true answered none_
      · intro is_seven
        exact absurd is_seven seven

theorem cmdParseArgv_eq (size : Nat) (text : Text) :
    cmdParseArgv size text = (words isBlank text).take size := by
  induction size generalizing text with
  | zero => rfl
  | succ size ih =>
      rw [← words_dropWhile]
      unfold cmdParseArgv
      cases start : text.dropWhile isBlank with
      | nil => rfl
      | cons char later =>
          have is_solid : solid isBlank char = true := by
            have head := List.head?_dropWhile_not isBlank text
            rw [start] at head
            simpa [solid] using head
          rw [words_cons isBlank char later is_solid, List.take_succ_cons]
          dsimp only
          congr 1
          cases (char :: later).dropWhile (solid isBlank) with
          | nil =>
              rw [List.tail_nil, words_nil]
              exact List.take_nil.symm
          | cons separator rest => exact ih rest

theorem genPskPromise_iff : GenPskPromise env cmd ↔ GenPskClean cmd := by
  by_cases starts : ∃ text, cmd = "genpsk ".toList ++ text
  · obtain ⟨text, rfl⟩ := starts
    have answered : cmdWlanStaExec env ("genpsk ".toList ++ text) =
        genPskAnswer ((words isBlank text).take 2) := by
      rw [← cmdParseArgv_eq]
      rfl
    have clean : GenPskClean ("genpsk ".toList ++ text) ↔
        (words isBlank text).length < 2 ∨
          ∃ ssid passphrase, words isBlank text = [ssid, passphrase] ∧
            ssid.length ≤ WLAN_SSID_MAX_LEN ∧
            passphrase.length < passphraseSize := by
      constructor
      · intro cleans
        exact cleans text rfl
      · intro cleans other same
        rw [← List.append_cancel_left same]
        exact cleans
    rw [clean]
    unfold GenPskPromise
    rw [answered]
    have behind : ("genpsk ".toList ++ text).drop 7 = text := rfl
    rw [behind]
    rcases words isBlank text with _ | ⟨ssid, _ | ⟨passphrase, later⟩⟩
    · exact iff_of_true nofun (Or.inl (by decide))
    · exact iff_of_true nofun (Or.inl (Nat.lt_succ_self 1))
    · rw [List.take_succ_cons, List.take_succ_cons, List.take_zero]
      unfold genPskAnswer
      dsimp only
      constructor
      · intro promise
        obtain ⟨same, _, narrow, short⟩ := promise _ rfl
        cases later with
        | nil =>
            obtain ⟨whole, complete⟩ := List.cons_eq_cons.mp same
            have complete := (List.cons_eq_cons.mp complete).1
            rw [← whole] at narrow
            rw [← complete] at short
            exact Or.inr ⟨ssid, passphrase, rfl, narrow, short⟩
        | cons third more =>
            exact absurd (congrArg List.length same) (by simp)
      · rintro (few | ⟨_, _, same, narrow, short⟩) param called
        · simp at few
        · cases same
          cases called
          have small : ssid.length < 2 ^ 8 := by
            unfold WLAN_SSID_MAX_LEN at narrow
            omega
          dsimp only
          rw [Nat.mod_eq_of_lt small, List.take_length,
            List.take_of_length_le (by omega)]
          exact ⟨rfl, rfl, narrow, short⟩
  · apply iff_of_true
    · intro param called
      exfalso
      by_cases named : ∃ keyword, Carries cmd keyword
      · obtain ⟨keyword, carries⟩ := named
        have same := (cmdWlanStaExec_performs env cmd keyword carries).2 _
          called
        rw [← same] at carries
        exact starts ((startsWith_iff _ _).mp carries)
      · rw [cmdWlanStaExec_of_not env cmd (not_exists.mp named)] at called
        split at called
        · cases called
        · cases called
    · intro text same
      exact absurd ⟨text, same⟩ starts

theorem setPromise_iff :
    SetPromise env cmd ↔
      ∀ text, cmd = "set ".toList ++ text →
        SetClean staFields env.dup text := by
  unfold SetPromise
  refine forall_congr' fun text => forall_congr' fun same => ?_
  subst same
  rw [← set_iff staFields env.dup tabled_staFields text,
    ← cmdWlanStaSet_eq]
  refine forall_congr' fun config => ?_
  rw [cmdWlanStaExec_set]
  cases cmdWlanStaSet env.dup text with
  | none => simp
  | some other => simp

end Lines

/-- The arguments of a station line, and of a line to set a configuration of
the access point, reach the driver unaltered or not at all exactly if they are
clean. -/
theorem arguments_unaltered (env : StaEnvironment) (cmd apCmd : Text) :
    (KeywordPromise env cmd ∧ GenPskPromise env cmd ∧ SetPromise env cmd ↔
        (cmd.length = 7 → ∃ keyword, Carries cmd keyword) ∧
          GenPskClean cmd ∧
          ∀ text, cmd = "set ".toList ++ text →
            SetClean staFields env.dup text) ∧
      ((∀ config, cmdWlanApSet env.dup apCmd = some config ↔
          Sets apFields apCmd config) ↔
        SetClean apFields env.dup apCmd) := by
  constructor
  · rw [keywordPromise_iff, genPskPromise_iff, setPromise_iff]
  · rw [cmdWlanApSet_eq]
    exact set_iff apFields env.dup tabled_apFields apCmd

def wholeEnvironment : StaEnvironment where
  dup := true
  malloc := true
  sysinfo := true

/-- Any other word of seven letters asks for a pin. -/
theorem sevenLetters_getPin :
    ¬ (KeywordPromise wholeEnvironment "restart".toList ∧
      GenPskPromise wholeEnvironment "restart".toList ∧
      SetPromise wholeEnvironment "restart".toList) := by
  rintro ⟨promise, _⟩
  have carries := promise.carried .wpsPinGet (by decide)
  exact absurd carries (by decide : ¬ "restart".toList = "wps pin".toList)

end XR872.Wlan
