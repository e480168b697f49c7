/-
The options of a DHCP message.

Options are put in behind those that are there as long as there is room, and
are looked for from the front.
-/

import XR872.Library.Spellings

namespace XR872.Network

open BitView
open Memories
open TaggedFields

/-- `struct dhcpMessage`; `rest` is the memory from `sname` on, also what is
behind the message. -/
structure DhcpMessage where
  op : Byte
  htype : Byte
  hlen : Byte
  xid : BitVec 32
  flags : BitVec 16
  ciaddr : BitVec 32
  yiaddr : BitVec 32
  siaddr : BitVec 32
  giaddr : BitVec 32
  chaddr : Fin 16 → Byte
  cookie : BitVec 32
  rest : Nat → Byte

def DHCP_PADDING : Byte := 0x00#8
def DHCP_SUBNET : Byte := 0x01#8
def DHCP_ROUTER : Byte := 0x03#8
def DHCP_DNS_SERVER : Byte := 0x06#8
def DHCP_REQUESTED_IP : Byte := 0x32#8
def DHCP_LEASE_TIME : Byte := 0x33#8
def DHCP_OPTION_OVER : Byte := 0x34#8
def DHCP_MESSAGE_TYPE : Byte := 0x35#8
def DHCP_SERVER_ID : Byte := 0x36#8
def DHCP_END : Byte := 0xFF#8

/-- Where `options` is in `rest`, behind `sname`, `file` and `cookie`. -/
def optionsPlace : Nat := 196

def optionsSize : Nat := 308

inductive OptionField
  | option
  | file
  | sname
deriving DecidableEq

namespace OptionField

def place : OptionField → Nat
  | option => optionsPlace
  | file => 64
  | sname => 0

def length : OptionField → Nat
  | option => optionsSize
  | file => 128
  | sname => 64

end OptionField

def FILE_FIELD : Byte := 1#8
def SNAME_FIELD : Byte := 2#8

/-- The loop of `get_option`; `none` is one that goes on. -/
def getOptionFrom (rest : Nat → Byte) (code : Byte) :
    Nat → OptionField → Nat → Byte → Option (Option Nat)
  | 0, _, _, _ => none
  | turns + 1, curr, i, overload =>
      let optionptr := fun index => rest (curr.place + index)
      if curr.length ≤ i then some none
      else if optionptr i = code then
        if curr.length ≤ i + 1 + (optionptr (i + 1)).toNat then some none
        else some (some (curr.place + i + 2))
      else if optionptr i = DHCP_PADDING then
        getOptionFrom rest code turns curr (i + 1) overload
      else if optionptr i = DHCP_OPTION_OVER then
        if curr.length ≤ i + 1 + (optionptr (i + 1)).toNat then some none
        else
          getOptionFrom rest code turns curr (i + (optionptr 1).toNat + 2)
            (optionptr (i + 3))
      else if optionptr i = DHCP_END then
        if curr = .option ∧ overload &&& FILE_FIELD ≠ 0 then
          getOptionFrom rest code turns .file 0 overload
        else if curr = .file ∧ overload &&& SNAME_FIELD ≠ 0 then
          getOptionFrom rest code turns .sname 0 overload
        else some none
      else
        getOptionFrom rest code turns curr
          (i + (optionptr (i + 1)).toNat + 2) overload

/-- More turns than the three fields have bytes. -/
def optionTurns : Nat := 600

/-- `get_option`: where the data of the option begin, `none` for `NULL`. -/
def getOption (rest : Nat → Byte) (code : Byte) : Option Nat :=
  (getOptionFrom rest code optionTurns .option 0 0).getD none

/-- The loop of `end_option`; `none` is one that leaves the options. -/
def endOptionFrom (rest : Nat → Byte) : Nat → Nat → Option Nat
  | 0, _ => none
  | turns + 1, i =>
      let optionptr := fun index => rest (optionsPlace + index)
      if optionptr i = DHCP_END then some i
      else if optionptr i = DHCP_PADDING then endOptionFrom rest turns (i + 1)
      else endOptionFrom rest turns (i + (optionptr (i + 1)).toNat + 2)

def endOption (rest : Nat → Byte) : Option Nat :=
  endOptionFrom rest optionsSize 0

/-- What it returns and the memory after it; `string` is what the pointer
points to. -/
def addOptionString (rest : Nat → Byte) (string : Nat → Byte) :
    Option (Nat × (Nat → Byte)) := do
  let stop ← endOption rest
  let length := (string 1).toNat
  if optionsSize ≤ stop + length + 2 + 1 then return (0, rest)
  else
    let rest := store rest (optionsPlace + stop) (load string 0 (length + 2))
    let rest := store rest (optionsPlace + stop + length + 2) [DHCP_END]
    return (length + 2, rest)

/-! ### Options of one to four bytes -/

/-- `OPTION_IP` and the other types. -/
inductive OptionType
  | ip
  | ipPair
  | string
  | boolean
  | u8
  | u16
  | s16
  | u32
  | s32
deriving DecidableEq

/-- `option_lengths`. -/
def optionLengths : OptionType → Nat
  | .ip => 4
  | .ipPair => 8
  | .boolean => 1
  | .string => 1
  | .u8 => 1
  | .u16 => 2
  | .s16 => 2
  | .u32 => 4
  | .s32 => 4

/-- The types and codes of `options`. -/
def dhcpOptions : List (OptionType × Byte) :=
  [(.ip, 0x01#8), (.s32, 0x02#8), (.ip, 0x03#8), (.ip, 0x04#8), (.ip, 0x05#8),
    (.ip, 0x06#8), (.ip, 0x07#8), (.ip, 0x08#8), (.ip, 0x09#8),
    (.string, 0x0c#8), (.u16, 0x0d#8), (.string, 0x0f#8), (.ip, 0x10#8),
    (.string, 0x11#8), (.u8, 0x17#8), (.u16, 0x1a#8), (.ip, 0x1c#8),
    (.ip, 0x2a#8), (.ip, 0x2c#8), (.ip, 0x32#8), (.u32, 0x33#8), (.u8, 0x35#8),
    (.ip, 0x36#8), (.string, 0x38#8), (.string, 0x42#8), (.string, 0x43#8)]

def simpleLength (code : Byte) : Nat :=
  dhcpOptions.foldl
    (fun length option =>
      if option.2 = code then optionLengths option.1 else length) 0

/-- The bytes of `option`: the code, the length and the data as they are in the
memory. -/
def simpleOption (code : Byte) (data : BitVec 32) : List Byte :=
  code :: BitVec.ofNat 8 (simpleLength code) ::
    (toBytes data).take (simpleLength code)

def addSimpleOption (rest : Nat → Byte) (code : Byte) (data : BitVec 32) :
    Option (Nat × (Nat → Byte)) :=
  if simpleLength code = 0 then some (0, rest)
  else
    addOptionString rest fun index => (simpleOption code data).getD index 0

/-! ### The header -/

def BOOTREQUEST : Byte := 1#8
def BOOTREPLY : Byte := 2#8

def DHCPDISCOVER : Byte := 1#8
def DHCPOFFER : Byte := 2#8
def DHCPREQUEST : Byte := 3#8
def DHCPDECLINE : Byte := 4#8
def DHCPACK : Byte := 5#8
def DHCPNAK : Byte := 6#8
def DHCPRELEASE : Byte := 7#8
def DHCPINFORM : Byte := 8#8

def DHCP_MAGIC : BitVec 32 := 0x63825363#32

def htonl (word : BitVec 32) : BitVec 32 :=
  word.extractLsb' 0 8 ++ word.extractLsb' 8 8 ++ word.extractLsb' 16 8 ++
    word.extractLsb' 24 8

def ntohl (word : BitVec 32) : BitVec 32 := htonl word

/-- `init_header`; `behind` is what is in the memory behind the message. -/
def initHeader (behind : Nat → Byte) (type : Byte) : Option DhcpMessage := do
  let op :=
    if type = DHCPDISCOVER ∨ type = DHCPREQUEST ∨ type = DHCPRELEASE ∨
        type = DHCPINFORM then BOOTREQUEST
    else if type = DHCPOFFER ∨ type = DHCPACK ∨ type = DHCPNAK then BOOTREPLY
    else 0
  let rest := fun address =>
    if address < optionsPlace + optionsSize then 0 else behind address
  let rest := store rest optionsPlace [DHCP_END]
  let (_, rest) ← addSimpleOption rest DHCP_MESSAGE_TYPE (type.setWidth 32)
  return { op := op, htype := 1, hlen := 6, xid := 0, flags := 0, ciaddr := 0,
           yiaddr := 0, siaddr := 0, giaddr := 0, chaddr := fun _ => 0,
           cookie := htonl DHCP_MAGIC, rest := rest }

/-! ### The options as fields -/

structure Optioned (rest : Nat → Byte) (fields : List Field) : Prop where
  spelled : Spelled rest optionsPlace DHCP_END fields
  codes : ∀ field ∈ fields, field.code ≠ DHCP_PADDING ∧ field.code ≠ DHCP_END
  fits : room fields + 1 < optionsSize

variable {rest : Nat → Byte} {fields : List Field}

theorem endOptionFrom_eq (turns i : Nat)
    (spelled : Spelled rest (optionsPlace + i) DHCP_END fields)
    (codes : ∀ field ∈ fields, field.code ≠ DHCP_PADDING ∧
      field.code ≠ DHCP_END) (enough : fields.length < turns) :
    endOptionFrom rest turns i = some (i + room fields) := by
  induction fields generalizing turns i with
  | nil =>
      cases turns with
      | zero => omega
      | succ turns =>
          have here : rest (optionsPlace + i) = DHCP_END := spelled
          simp [endOptionFrom, here]
  | cons field more ih =>
      cases turns with
      | zero => omega
      | succ turns =>
          have here := spelled.1
          have length := spelled.2.1
          rw [Nat.add_assoc] at length
          have own := codes field List.mem_cons_self
          have tail := spelled.2.2.2
          rw [Nat.add_assoc] at tail
          rw [endOptionFrom]
          simp only [here, length, if_neg own.1, if_neg own.2,
            field.toNat_length]
          have later := ih turns (i + field.size) tail
            (fun other member => codes other (List.mem_cons_of_mem _ member))
            (by simpa using enough)
          rw [room_cons, ← Nat.add_assoc, ← later, Field.size, Nat.add_assoc]

namespace Optioned

theorem endOption_eq (options : Optioned rest fields) :
    endOption rest = some (room fields) := by
  have enough := length_le_room fields
  have fits := options.fits
  rw [endOption, endOptionFrom_eq optionsSize 0 options.spelled options.codes
    (by omega), Nat.zero_add]

/-- An option that fits is put behind the others, with the end behind it; one
that does not fit is left out. -/
theorem add_string (options : Optioned rest fields) (field : Field)
    (code : field.code ≠ DHCP_PADDING ∧ field.code ≠ DHCP_END)
    (string : Nat → Byte) (points : load string 0 field.size = field.bytes) :
    ∃ count after, addOptionString rest string = some (count, after) ∧
      Optioned after (putIn (optionsSize - 1) fields field) ∧
      (∀ address, address < optionsPlace ∨ optionsPlace + optionsSize ≤ address →
        after address = rest address) ∧
      (room fields + field.size < optionsSize - 1 → count = field.size) := by
  have length : string 1 = BitVec.ofNat 8 field.data.length := by
    have second := congrArg (fun bytes => bytes[1]?) points
    simp only [getElem?_load string 0 field.size 1 (by
      unfold Field.size
      omega), Field.bytes, List.getElem?_cons_succ,
      List.getElem?_cons_zero] at second
    exact Option.some.inj second
  have fits := options.fits
  have size : field.data.length + 2 = field.size := rfl
  unfold addOptionString
  simp only [options.endOption_eq, Option.bind_eq_bind, Option.bind_some, length,
    field.toNat_length, size, points]
  by_cases full : optionsSize ≤ room fields + field.data.length + 2 + 1
  · rw [if_pos full]
    refine ⟨0, rest, rfl, ?_, fun address _ => rfl, ?_⟩
    · rw [putIn, if_neg]
      · exact options
      · unfold optionsSize Field.size at *
        omega
    · unfold optionsSize Field.size at *
      omega
  · rw [if_neg full]
    have roomy : room fields + field.size < optionsSize - 1 := by
      unfold optionsSize Field.size at *
      omega
    have stop : optionsPlace + room fields + field.data.length + 2 =
        optionsPlace + room fields + field.bytes.length := by
      rw [Field.length_bytes, Field.size]
      omega
    rw [stop, store_store]
    refine ⟨field.size, _, rfl, ?_, ?_, fun _ => rfl⟩
    · rw [putIn, if_pos roomy]
      constructor
      · exact options.spelled.concat field
      · rw [List.forall_mem_append, List.forall_mem_singleton]
        exact ⟨options.codes, code⟩
      · rw [room_concat]
        omega
    · intro address outside
      apply store_outside
      rw [List.length_append, Field.length_bytes, List.length_singleton]
      omega

end Optioned

theorem getOptionFrom_eq (code : Byte) (notEnd : code ≠ DHCP_END)
    (turns i : Nat)
    (spelled : Spelled rest (optionsPlace + i) DHCP_END fields)
    (codes : ∀ field ∈ fields, field.code ≠ DHCP_PADDING ∧
      field.code ≠ DHCP_END)
    (whole : ∀ field ∈ fields, field.code ≠ DHCP_OPTION_OVER)
    (fits : i + room fields + 1 < optionsSize)
    (enough : fields.length < turns) :
    getOptionFrom rest code turns .option i 0 =
      some ((locate code fields).map (optionsPlace + i + ·)) := by
  induction fields generalizing turns i with
  | nil =>
      cases turns with
      | zero => omega
      | succ turns =>
          have here : rest (OptionField.option.place + i) = DHCP_END := spelled
          have others : DHCP_END ≠ DHCP_PADDING ∧
              DHCP_END ≠ DHCP_OPTION_OVER := by decide
          simp [getOptionFrom, here, notEnd.symm, others, locate]
  | cons field more ih =>
      cases turns with
      | zero => omega
      | succ turns =>
          have here : rest (OptionField.option.place + i) = field.code :=
            spelled.1
          have length : rest (OptionField.option.place + (i + 1)) =
              BitVec.ofNat 8 field.data.length := spelled.2.1
          have own := codes field List.mem_cons_self
          have notOver := whole field List.mem_cons_self
          rw [room_cons, Field.size] at fits
          have inside : ¬OptionField.option.length ≤ i := by
            change ¬optionsSize ≤ i
            omega
          have all : ¬OptionField.option.length ≤ i + 1 + field.data.length := by
            change ¬optionsSize ≤ _
            omega
          rw [getOptionFrom]
          simp only [here, length, if_neg inside, field.toNat_length, if_neg all,
            if_neg own.1, if_neg own.2, if_neg notOver, locate]
          by_cases found : field.code = code
          · rw [if_pos found, if_pos found]
            rfl
          · have tail := spelled.2.2.2
            rw [Nat.add_assoc] at tail
            have later := ih turns (i + field.size) tail
              (fun other member => codes other (List.mem_cons_of_mem _ member))
              (fun other member => whole other (List.mem_cons_of_mem _ member))
              (by
                unfold Field.size
                omega) (by simpa using enough)
            rw [if_neg found, if_neg found, Option.map_map, Nat.add_assoc]
            change getOptionFrom rest code turns .option (i + field.size) 0 = _
            rw [later]
            congr 2
            funext address
            simp only [Function.comp_apply]
            omega

namespace Optioned

theorem getOption_eq (options : Optioned rest fields)
    (whole : ∀ field ∈ fields, field.code ≠ DHCP_OPTION_OVER) (code : Byte)
    (notEnd : code ≠ DHCP_END) :
    getOption rest code = (locate code fields).map (optionsPlace + ·) := by
  have enough := length_le_room fields
  have fits := options.fits
  have turns : fields.length < optionTurns := by
    unfold optionTurns
    unfold optionsSize at fits
    omega
  unfold getOption
  rw [getOptionFrom_eq code notEnd optionTurns 0 options.spelled options.codes
    whole (by omega) turns]
  rfl

theorem option_found (options : Optioned rest fields)
    (whole : ∀ field ∈ fields, field.code ≠ DHCP_OPTION_OVER) (code : Byte)
    (notEnd : code ≠ DHCP_END) (field : Field)
    (first : fields.find? (fun field => field.code = code) = some field) :
    ∃ place, getOption rest code = some place ∧
      load rest place field.data.length = field.data := by
  have found := options.getOption_eq whole code notEnd
  cases at_ : locate code fields with
  | none =>
      rw [locate_eq_none] at at_
      have member := List.mem_of_find?_eq_some first
      have same := List.find?_some first
      exact absurd (of_decide_eq_true same) (at_ field member)
  | some offset =>
      obtain ⟨field', first', data, _⟩ :=
        options.spelled.data_at code offset at_
      rw [first] at first'
      cases first'
      rw [at_] at found
      exact ⟨optionsPlace + offset, found, data⟩

end Optioned

/-! ### Options of the table -/

/-- The data of an option of one to four bytes. -/
def simpleField (code : Byte) (data : BitVec 32) : Field where
  code := code
  data := (toBytes data).take (simpleLength code)
  short := by
    rw [List.length_take, toBytes_length]
    omega

theorem Optioned.add_simple (options : Optioned rest fields) (code : Byte)
    (data : BitVec 32) (known : simpleLength code ∈ [1, 2, 4])
    (own : code ≠ DHCP_PADDING ∧ code ≠ DHCP_END) :
    ∃ count after, addSimpleOption rest code data = some (count, after) ∧
      Optioned after
        (putIn (optionsSize - 1) fields (simpleField code data)) ∧
      ∀ address, address < optionsPlace ∨ optionsPlace + optionsSize ≤ address →
        after address = rest address := by
  have four : (toBytes data).length = 4 := toBytes_length data
  have short : simpleLength code ≤ 4 ∧ simpleLength code ≠ 0 := by
    simp only [List.mem_cons, List.not_mem_nil, or_false] at known
    omega
  have length : (simpleField code data).data.length = simpleLength code := by
    rw [simpleField, List.length_take, four]
    omega
  have bytes : (simpleField code data).bytes = simpleOption code data := by
    rw [Field.bytes, length]
    rfl
  obtain ⟨count, after, run, optioned, outside, _⟩ :=
    options.add_string (simpleField code data) own
      (fun index => (simpleOption code data).getD index 0) (by
        rw [← bytes]
        exact load_getD (simpleField code data).bytes 0)
  refine ⟨count, after, ?_, optioned, outside⟩
  unfold addSimpleOption
  rw [if_neg short.2]
  exact run

/-! ### Messages built up -/

theorem initHeader_spec (behind : Nat → Byte) (type : Byte) :
    ∃ message, initHeader behind type = some message ∧
      Optioned message.rest
        [simpleField DHCP_MESSAGE_TYPE (type.setWidth 32)] ∧
      (∀ address, optionsPlace + optionsSize ≤ address →
        message.rest address = behind address) ∧ message.yiaddr = 0 := by
  have empty : Optioned (store (fun address =>
      if address < optionsPlace + optionsSize then 0 else behind address)
        optionsPlace [DHCP_END]) [] := by
    constructor
    · exact store_inside _ optionsPlace [DHCP_END] 0
    · intro field member
      cases member
    · decide
  obtain ⟨count, rest, run, optioned, outside⟩ := empty.add_simple
    DHCP_MESSAGE_TYPE (type.setWidth 32) (by decide) (by decide)
  unfold initHeader
  simp only [run, Option.bind_eq_bind, Option.bind_some]
  refine ⟨_, rfl, optioned, ?_, rfl⟩
  intro address outer
  dsimp only
  rw [outside address (Or.inr outer), store_outside]
  · exact if_neg (by omega)
  · right
    exact Nat.le_trans (Nat.add_le_add_left (by decide) _) outer

def stringOf (field : Field) : Nat → Byte := fun index =>
  field.bytes.getD index 0

/-- A call of `add_option_string` for each of the options. -/
def addOptionStrings (rest : Nat → Byte) (fields : List Field) :
    Option (Nat → Byte) :=
  fields.foldlM
    (fun rest field => (addOptionString rest (stringOf field)).map Prod.snd)
    rest

theorem load_stringOf (field : Field) :
    load (stringOf field) 0 field.size = field.bytes :=
  load_getD field.bytes 0

/-- A code that stands for an option of the sender's. -/
def Plain (field : Field) : Prop :=
  field.code ≠ DHCP_PADDING ∧ field.code ≠ DHCP_END ∧
    field.code ≠ DHCP_OPTION_OVER

theorem mem_putIn {limit : Nat} {field other : Field}
    (member : other ∈ putIn limit fields field) :
    other ∈ fields ∨ other = field := by
  unfold putIn at member
  split at member
  · simpa using member
  · exact Or.inl member

theorem Optioned.add_strings (options : Optioned rest fields)
    (plain : ∀ field ∈ fields, Plain field) (more : List Field)
    (others : ∀ field ∈ more, Plain field) :
    ∃ after, addOptionStrings rest more = some after ∧
      Optioned after (putAll (optionsSize - 1) fields more) ∧
      (∀ field ∈ putAll (optionsSize - 1) fields more, Plain field) ∧
      ∀ address, address < optionsPlace ∨ optionsPlace + optionsSize ≤ address →
        after address = rest address := by
  induction more generalizing rest fields with
  | nil => exact ⟨rest, rfl, options, plain, fun address _ => rfl⟩
  | cons field more ih =>
      rw [List.forall_mem_cons] at others
      have own := others.1
      obtain ⟨count, next, run, optioned, outside, _⟩ := options.add_string
        field ⟨own.1, own.2.1⟩ (stringOf field) (load_stringOf field)
      have together : ∀ other ∈ putIn (optionsSize - 1) fields field,
          Plain other := by
        intro other member
        cases mem_putIn member with
        | inl old => exact plain other old
        | inr new => rw [new]; exact own
      obtain ⟨after, later, whole, all, same⟩ :=
        ih optioned together others.2
      refine ⟨after, ?_, whole, all, ?_⟩
      · unfold addOptionStrings at later ⊢
        rw [List.foldlM_cons, run]
        exact later
      · intro address outer
        rw [same address outer, outside address outer]

/-- The options of a message that was built up are found again: the header's
type and every option that there was room for, with its data. Nothing but the
options is written. -/
theorem options_round_trip (behind : Nat → Byte) (type : Byte)
    (fields : List Field) (plain : ∀ field ∈ fields, Plain field) :
    ∃ message rest, initHeader behind type = some message ∧
      addOptionStrings message.rest fields = some rest ∧
      (∀ address, address < optionsPlace ∨ optionsPlace + optionsSize ≤ address →
        rest address = message.rest address) ∧
      ∀ code, code ≠ DHCP_END →
        match (putAll (optionsSize - 1)
          [simpleField DHCP_MESSAGE_TYPE (type.setWidth 32)] fields).find?
            (fun field => field.code = code) with
        | none => getOption rest code = none
        | some field => ∃ place, getOption rest code = some place ∧
            load rest place field.data.length = field.data := by
  obtain ⟨message, started, optioned, _⟩ := initHeader_spec behind type
  obtain ⟨rest, run, whole, all, outside⟩ := optioned.add_strings (by
    intro field member
    rw [List.mem_singleton.mp member]
    change DHCP_MESSAGE_TYPE ≠ _ ∧ DHCP_MESSAGE_TYPE ≠ _ ∧ DHCP_MESSAGE_TYPE ≠ _
    decide) fields plain
  refine ⟨message, rest, started, run, outside, ?_⟩
  intro code notEnd
  have noOver : ∀ field ∈ putAll (optionsSize - 1)
      [simpleField DHCP_MESSAGE_TYPE (type.setWidth 32)] fields,
      field.code ≠ DHCP_OPTION_OVER := fun field member =>
    (all field member).2.2
  split
  · next missing =>
      rw [whole.getOption_eq noOver code notEnd, (locate_eq_none code _).mpr]
      · rfl
      · intro field member same
        rw [List.find?_eq_none] at missing
        exact missing field member (decide_eq_true same)
  · next field first =>
      exact whole.option_found noOver code notEnd field first

def netmaskField : Field :=
  ⟨DHCP_SUBNET, [255#8, 255#8, 255#8, 0#8], by decide⟩

theorem options_round_trip_netmask :
    ∃ rest place, getOption rest DHCP_SUBNET = some place ∧
      load rest place 4 = [255#8, 255#8, 255#8, 0#8] := by
  obtain ⟨message, rest, _, _, _, found⟩ := options_round_trip (fun _ => 0)
    DHCPACK [netmaskField] (by
      rw [List.forall_mem_singleton]
      unfold Plain
      decide)
  have first : (putAll (optionsSize - 1)
      [simpleField DHCP_MESSAGE_TYPE (DHCPACK.setWidth 32)]
        [netmaskField]).find? (fun field => field.code = DHCP_SUBNET) =
      some netmaskField := rfl
  have subnet := found DHCP_SUBNET (by decide)
  rw [first] at subnet
  obtain ⟨place, isPlace, data⟩ := subnet
  exact ⟨rest, place, isPlace, data⟩

end XR872.Network
