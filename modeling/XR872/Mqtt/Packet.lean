/-
The parts that MQTT packets are made of.

Packets are written to and read from plain memory. A writer hands on the place
behind what it wrote.
-/

import XR872.Library.Spellings
import XR872.Library.Memory

namespace XR872.Mqtt

open BitView
open Memories

def MQTTPACKET_BUFFER_TOO_SHORT : Int := -2

def CONNECT : BitVec 4 := 1#4
def CONNACK : BitVec 4 := 2#4
def PUBLISH : BitVec 4 := 3#4
def PUBACK : BitVec 4 := 4#4
def PUBREC : BitVec 4 := 5#4
def PUBREL : BitVec 4 := 6#4
def PUBCOMP : BitVec 4 := 7#4
def SUBSCRIBE : BitVec 4 := 8#4
def SUBACK : BitVec 4 := 9#4
def UNSUBSCRIBE : BitVec 4 := 10#4
def UNSUBACK : BitVec 4 := 11#4
def PINGREQ : BitVec 4 := 12#4
def PINGRESP : BitVec 4 := 13#4
def DISCONNECT : BitVec 4 := 14#4

/-- The bits of `MQTTHeader`. -/
structure MQTTHeader where
  type : BitVec 4
  dup : BitVec 1
  qos : BitVec 2
  retain : BitVec 1
deriving DecidableEq

namespace MQTTHeader

def byte (header : MQTTHeader) : Byte :=
  header.type ++ header.dup ++ header.qos ++ header.retain

def ofByte (byte : Byte) : MQTTHeader where
  type := byte.extractLsb' 4 4
  dup := byte.extractLsb' 3 1
  qos := byte.extractLsb' 1 2
  retain := byte.extractLsb' 0 1

@[simp] theorem ofByte_byte (header : MQTTHeader) :
    ofByte header.byte = header := by
  have every : ∀ (type : BitVec 4) (dup : BitVec 1) (qos : BitVec 2)
      (retain : BitVec 1), ofByte (MQTTHeader.mk type dup qos retain).byte =
        ⟨type, dup, qos, retain⟩ := by decide +kernel
  exact every header.type header.dup header.qos header.retain

end MQTTHeader

/-- A string is given with its end or with its length; `lenstring` is `none` for
no data. -/
structure MQTTString where
  cstring : Option (List Byte)
  lenstring : Option (List Byte)
deriving DecidableEq

namespace MQTTString

/-- `lenstring.len`. -/
def len (string : MQTTString) : Nat := (string.lenstring.getD []).length

/-- The text that is written. -/
def text (string : MQTTString) : List Byte :=
  if 0 < string.len then string.lenstring.getD [] else string.cstring.getD []

end MQTTString

def mqttStrlen (string : MQTTString) : Nat :=
  match string.cstring with
  | some chars => chars.length
  | none => string.len

/-! ### Writing -/

/-- The memory and the place where the next byte goes. -/
structure Output where
  memory : Nat → Byte
  ptr : Nat

/-- `memcpy` to the place, which is moved behind the data. -/
def Output.put (out : Output) (data : List Byte) : Output :=
  ⟨store out.memory out.ptr data, out.ptr + data.length⟩

def writeChar (out : Output) (c : Byte) : Output := out.put [c]

def writeInt (out : Output) (anInt : Nat) : Output :=
  writeChar (writeChar out (BitVec.ofNat 8 (anInt / 256)))
    (BitVec.ofNat 8 (anInt % 256))

def writeCString (out : Output) (string : List Byte) : Output :=
  (writeInt out string.length).put string

def writeMQTTString (out : Output) (string : MQTTString) : Output :=
  if 0 < string.len then
    (writeInt out string.len).put (string.lenstring.getD [])
  else
    match string.cstring with
    | some chars => writeCString out chars
    | none => writeInt out 0

/-- The turns of `MQTTPacket_encode`: an `int` has at most five groups. -/
def encodeFrom : Nat → Output → Nat → Output
  | 0, out, _ => out
  | turns + 1, out, length =>
      let d := BitVec.ofNat 8 (length % 128)
      let length := length / 128
      if 0 < length then encodeFrom turns (writeChar out (d ||| 0x80#8)) length
      else writeChar out d

def mqttPacketEncode (out : Output) (length : Nat) : Output :=
  encodeFrom 5 out length

def mqttPacketLen (remLen : Nat) : Nat :=
  let remLen := remLen + 1
  if remLen < 128 then remLen + 1
  else if remLen < 16384 then remLen + 2
  else if remLen < 2097151 then remLen + 3
  else remLen + 4

/-! ### Reading -/

/-- The turns of `MQTTPacket_decode`, which reads with `getchar`. -/
def decodeFrom {σ : Type} (getchar : σ → Option Byte × σ) :
    Nat → σ → Nat → Nat → Nat → Nat × Nat × σ
  | 0, source, value, _, len => (len + 1, value, source)
  | turns + 1, source, value, multiplier, len =>
      match getchar source with
      | (none, source) => (len + 1, value, source)
      | (some c, source) =>
          let value := value + (c &&& 127#8).toNat * multiplier
          if c &&& 128#8 ≠ 0#8 then
            decodeFrom getchar turns source value (multiplier * 128) (len + 1)
          else (len + 1, value, source)

def MAX_NO_OF_REMAINING_LENGTH_BYTES : Nat := 4

/-- The count of bytes, the value, and the source behind them. -/
def mqttPacketDecode {σ : Type} (getchar : σ → Option Byte × σ) (source : σ) :
    Nat × Nat × σ :=
  decodeFrom getchar MAX_NO_OF_REMAINING_LENGTH_BYTES source 0 1 0

def bufchar (memory : Nat → Byte) (bufptr : Nat) : Option Byte × Nat :=
  (some (memory bufptr), bufptr + 1)

/-- The count of bytes and the value. -/
def mqttPacketDecodeBuf (memory : Nat → Byte) (buf : Nat) : Nat × Nat :=
  let (len, value, _) := mqttPacketDecode (bufchar memory) buf
  (len, value)

def readInt (memory : Nat → Byte) (ptr : Nat) : Nat :=
  256 * (memory ptr).toNat + (memory (ptr + 1)).toNat

/-- A string that was read: a place in the packet and a length. -/
structure Span where
  data : Nat
  len : Nat
deriving DecidableEq

def Span.text (memory : Nat → Byte) (span : Span) : List Byte :=
  load memory span.data span.len

/-- The string and the place behind it. -/
def readMQTTLenString (memory : Nat → Byte) (ptr enddata : Nat) :
    Option (Span × Nat) :=
  if ptr + 1 < enddata then
    let len := readInt memory ptr
    if ptr + 2 + len ≤ enddata then some (⟨ptr + 2, len⟩, ptr + 2 + len)
    else none
  else none

/-! ### What is written -/

namespace MQTTString

/-- Only one of the two forms is given. -/
def OneForm (string : MQTTString) : Prop :=
  string.cstring = none ∨ string.len = 0

instance (string : MQTTString) : Decidable string.OneForm := by
  unfold OneForm
  infer_instance

end MQTTString

@[simp] theorem put_put (out : Output) (first second : List Byte) :
    (out.put first).put second = out.put (first ++ second) := by
  unfold Output.put
  rw [store_store, List.length_append, Nat.add_assoc]

@[simp] theorem put_nil (out : Output) : out.put [] = out := by
  unfold Output.put
  rw [store_nil]
  rfl

theorem put_result (memory : Nat → Byte) (buf : Nat) (data : List Byte) :
    ((((⟨memory, buf⟩ : Output).put data).ptr : Int) - buf,
        ((⟨memory, buf⟩ : Output).put data).memory) =
      ((data.length : Int), store memory buf data) := by
  unfold Output.put
  dsimp only
  congr 1
  omega

@[simp] theorem writeChar_eq (out : Output) (c : Byte) :
    writeChar out c = out.put [c] := rfl

def intBytes (anInt : Nat) : List Byte :=
  [BitVec.ofNat 8 (anInt / 256), BitVec.ofNat 8 (anInt % 256)]

@[simp] theorem length_intBytes (anInt : Nat) :
    (intBytes anInt).length = 2 := rfl

@[simp] theorem writeInt_eq (out : Output) (anInt : Nat) :
    writeInt out anInt = out.put (intBytes anInt) := by
  unfold writeInt
  rw [writeChar_eq, writeChar_eq, put_put]
  rfl

theorem put_if (condition : Prop) [Decidable condition] (out : Output)
    (data : List Byte) :
    (if condition then out.put data else out) =
      out.put (if condition then data else []) := by
  by_cases met : condition
  · rw [if_pos met, if_pos met]
  · rw [if_neg met, if_neg met, put_nil]

def stringBytes (text : List Byte) : List Byte := intBytes text.length ++ text

@[simp] theorem length_stringBytes (text : List Byte) :
    (stringBytes text).length = 2 + text.length := by
  rw [stringBytes, List.length_append, length_intBytes]

@[simp] theorem writeMQTTString_eq (out : Output) (string : MQTTString) :
    writeMQTTString out string = out.put (stringBytes string.text) := by
  unfold writeMQTTString MQTTString.text stringBytes
  by_cases given : 0 < string.len
  · rw [if_pos given, if_pos given, writeInt_eq, put_put]
    rfl
  · rw [if_neg given, if_neg given]
    cases string.cstring with
    | none =>
        rw [writeInt_eq, Option.getD_none, List.append_nil]
        rfl
    | some chars =>
        dsimp only [writeCString]
        rw [writeInt_eq, put_put, Option.getD_some]

/-- The length is computed for the form that is there, the text is taken from
the form that is not empty. -/
theorem mqttStrlen_eq (string : MQTTString) (oneForm : string.OneForm) :
    mqttStrlen string = string.text.length := by
  unfold mqttStrlen MQTTString.text
  by_cases given : 0 < string.len
  · rw [if_pos given]
    cases oneForm with
    | inl absent =>
        rw [absent]
        rfl
    | inr empty => omega
  · rw [if_neg given]
    cases string.cstring with
    | none => exact Nat.eq_zero_of_not_pos given
    | some chars => rfl

theorem encodeFrom_eq (turns : Nat) (out : Output) (length : Nat)
    (fits : length < 128 ^ (turns + 1)) :
    encodeFrom (turns + 1) out length = out.put (Base128.spelled length) := by
  induction turns generalizing out length with
  | zero =>
      have small : length < 128 := fits
      rw [encodeFrom, Nat.div_eq_of_lt small, if_neg (Nat.lt_irrefl 0),
        Nat.mod_eq_of_lt small, Base128.spelled_small length small]
      rfl
  | succ turns ih =>
      rw [encodeFrom]
      by_cases small : length < 128
      · rw [Nat.div_eq_of_lt small, if_neg (Nat.lt_irrefl 0),
          Nat.mod_eq_of_lt small, Base128.spelled_small length small]
        rfl
      · have large : 128 ≤ length := Nat.le_of_not_lt small
        have lower : length / 128 < 128 ^ (turns + 1) := by
          apply Nat.div_lt_of_lt_mul
          rw [← Nat.pow_succ']
          exact fits
        rw [if_pos (Nat.div_pos large (by decide)), ih _ _ lower,
          Base128.spelled_large length large, writeChar_eq, put_put]
        rfl

theorem mqttPacketEncode_eq (out : Output) (length : Nat)
    (fits : length < 128 ^ 4) :
    mqttPacketEncode out length = out.put (Base128.spelled length) :=
  encodeFrom_eq 4 out length (by omega)

/-- The length that is checked is enough for a packet with four bytes for its
remaining length. -/
theorem mqttPacketLen_enough (remLen : Nat) (fits : remLen < 128 ^ 4) :
    1 + (Base128.spelled remLen).length + remLen ≤ mqttPacketLen remLen := by
  have within : ∀ count, remLen < 128 ^ (count + 1) →
      (Base128.spelled remLen).length ≤ count + 1 :=
    fun count => Base128.length_spelled_le count remLen
  have one := within 0
  have two := within 1
  have three := within 2
  have four := within 3
  unfold mqttPacketLen
  dsimp only
  norm_num at one two three four fits
  split
  · have := one (by omega)
    omega
  · split
    · have := two (by omega)
      omega
    · split
      · have := three (by omega)
        omega
      · have := four fits
        omega

/-! ### What is read -/

/-- The source hands out these bytes one by one. -/
def Delivers {σ : Type} (getchar : σ → Option Byte × σ) :
    σ → List Byte → σ → Prop
  | source, [], after => source = after
  | source, byte :: rest, after =>
      ∃ next, getchar source = (some byte, next) ∧
        Delivers getchar next rest after

theorem decodeFrom_spelled {σ : Type} (getchar : σ → Option Byte × σ)
    (turns : Nat) (source after : σ) (number value multiplier len : Nat)
    (fits : number < 128 ^ (turns + 1))
    (delivers : Delivers getchar source (Base128.spelled number) after) :
    decodeFrom getchar (turns + 1) source value multiplier len =
      (len + (Base128.spelled number).length, value + number * multiplier,
        after) := by
  induction turns generalizing source number value multiplier len with
  | zero =>
      have small : number < 128 := fits
      obtain ⟨group, last⟩ := Base128.group_last number small
      rw [Base128.spelled_small number small] at delivers ⊢
      obtain ⟨next, read, done⟩ := delivers
      have ended : next = after := done
      rw [decodeFrom, read]
      dsimp only
      rw [group, last, if_neg (not_not_intro rfl), ended]
      rfl
  | succ turns ih =>
      by_cases small : number < 128
      · obtain ⟨group, last⟩ := Base128.group_last number small
        rw [Base128.spelled_small number small] at delivers ⊢
        obtain ⟨next, read, done⟩ := delivers
        have ended : next = after := done
        rw [decodeFrom, read]
        dsimp only
        rw [group, last, if_neg (not_not_intro rfl), ended]
        rfl
      · have large : 128 ≤ number := Nat.le_of_not_lt small
        have lower : number / 128 < 128 ^ (turns + 1) := by
          apply Nat.div_lt_of_lt_mul
          rw [← Nat.pow_succ']
          exact fits
        obtain ⟨group, inner⟩ := Base128.group_inner number
        rw [Base128.spelled_large number large] at delivers ⊢
        obtain ⟨next, read, rest⟩ := delivers
        rw [decodeFrom, read]
        dsimp only
        rw [group, inner, if_pos (by decide), ih _ _ _ _ _ lower rest,
          List.length_cons]
        refine Prod.ext ?_ (Prod.ext ?_ rfl)
        · dsimp only
          omega
        · dsimp only
          have split := Nat.mod_add_div number 128
          calc value + number % 128 * multiplier +
                number / 128 * (multiplier * 128)
              = value + (number % 128 + 128 * (number / 128)) * multiplier := by
                ring
            _ = value + number * multiplier := by rw [split]

theorem bufchar_delivers (memory : Nat → Byte) (place : Nat)
    (data : List Byte) (laid : Laid memory place data) :
    Delivers (bufchar memory) place data (place + data.length) := by
  induction data generalizing place with
  | nil => rfl
  | cons byte rest ih =>
      obtain ⟨first, others⟩ := (laid_cons_iff memory place byte rest).mp laid
      refine ⟨place + 1, ?_, ?_⟩
      · rw [bufchar, first]
      · have next := ih (place + 1) others
        rw [Nat.add_assoc, Nat.add_comm 1] at next
        exact next

theorem mqttPacketDecodeBuf_eq (memory : Nat → Byte) (place number : Nat)
    (fits : number < 128 ^ 4)
    (laid : Laid memory place (Base128.spelled number)) :
    mqttPacketDecodeBuf memory place =
      ((Base128.spelled number).length, number) := by
  unfold mqttPacketDecodeBuf mqttPacketDecode
  rw [show MAX_NO_OF_REMAINING_LENGTH_BYTES = 3 + 1 from rfl,
    decodeFrom_spelled _ _ _ _ _ _ _ _ fits
      (bufchar_delivers memory place _ laid), Nat.zero_add, Nat.zero_add,
    Nat.mul_one]

theorem readInt_eq (memory : Nat → Byte) (place anInt : Nat)
    (fits : anInt < 65536) (laid : Laid memory place (intBytes anInt)) :
    readInt memory place = anInt := by
  unfold intBytes at laid
  rw [laid_cons_iff, laid_cons_iff] at laid
  obtain ⟨high, low, _⟩ := laid
  rw [readInt, high, low, BitVec.toNat_ofNat, BitVec.toNat_ofNat]
  omega

/-- A string that was written is read back if the data do not end before. -/
theorem readMQTTLenString_eq (memory : Nat → Byte) (place enddata : Nat)
    (text : List Byte) (fits : text.length < 65536)
    (laid : Laid memory place (stringBytes text))
    (within : place + (2 + text.length) ≤ enddata) :
    readMQTTLenString memory place enddata =
        some (⟨place + 2, text.length⟩, place + (2 + text.length)) ∧
      Span.text memory ⟨place + 2, text.length⟩ = text := by
  obtain ⟨length, content⟩ := (laid_append_iff _ _ _ _).mp laid
  have same : readInt memory place = text.length :=
    readInt_eq memory place text.length fits length
  refine ⟨?_, content⟩
  unfold readMQTTLenString
  rw [if_pos (by omega)]
  dsimp only
  rw [same, if_pos (by omega), Nat.add_assoc place 2]

end XR872.Mqtt
