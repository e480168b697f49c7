/-
The dictionary of the LZMA2 decoder, in multi-call mode.

The dictionary goes around its end; a history that has no end is behind it.
-/

import XR872.Library.BitView
import XR872.Library.Compression
import XR872.Library.Memory

namespace XR872.Xz

open BitView
open Lz77
open Memories

/-- `struct dictionary`; in multi-call mode `end` is `size`. -/
structure Dictionary where
  buf : Nat → Byte
  start : Nat
  pos : Nat
  full : Nat
  limit : Nat
  size : Nat

def dictReset (dict : Dictionary) : Dictionary :=
  { dict with start := 0, pos := 0, limit := 0, full := 0 }

def dictLimit (dict : Dictionary) (outMax : Nat) : Dictionary :=
  if dict.size - dict.pos ≤ outMax then { dict with limit := dict.size }
  else { dict with limit := dict.pos + outMax }

def dictHasSpace (dict : Dictionary) : Bool := dict.pos < dict.limit

def dictOffset (dict : Dictionary) (dist : Nat) : Nat :=
  if dict.pos ≤ dist then dict.pos + dict.size - dist - 1
  else dict.pos - dist - 1

def dictGet (dict : Dictionary) (dist : Nat) : Byte :=
  if 0 < dict.full then dict.buf (dictOffset dict dist) else 0

def dictPut (dict : Dictionary) (byte : Byte) : Dictionary :=
  { dict with
    buf := store dict.buf dict.pos [byte]
    pos := dict.pos + 1
    full := if dict.full < dict.pos + 1 then dict.pos + 1 else dict.full }

/-- The turns of the loop of `dict_repeat`. -/
def repeatFrom (size : Nat) : Nat → (Nat → Byte) → Nat → Nat →
    (Nat → Byte) × Nat
  | 0, buf, pos, _ => (buf, pos)
  | left + 1, buf, pos, back =>
      let buf := store buf pos [buf back]
      let back := if back + 1 = size then 0 else back + 1
      repeatFrom size left buf (pos + 1) back

/-- What is left of the length; `none` is an invalid distance. Without anything
to repeat the counter would wrap. -/
def dictRepeat (dict : Dictionary) (len dist : Nat) :
    Option (Nat × Dictionary) :=
  if dict.full ≤ dist ∨ dict.size ≤ dist then none
  else
    let left := min (dict.limit - dict.pos) len
    let turns := if left = 0 then 2 ^ 32 else left
    let (buf, pos) :=
      repeatFrom dict.size turns dict.buf dict.pos (dictOffset dict dist)
    some (len - left,
      { dict with
        buf := buf
        pos := pos
        full := if dict.full < pos then pos else dict.full })

/-- What is put out, and the dictionary. -/
def dictFlush (dict : Dictionary) : List Byte × Dictionary :=
  let copySize := dict.pos - dict.start
  let pos := if dict.pos = dict.size then 0 else dict.pos
  (load dict.buf dict.start copySize, { dict with pos := pos, start := pos })

/-! ### The history -/

structure RingOf (buf : Nat → Byte) (size pos : Nat) (history : List Byte) :
    Prop where
  pos_le : pos ≤ size
  rounds : ∃ count, history.length = pos + count * size
  content : ∀ index < history.length, history.length ≤ index + size →
    history[index]? = some (buf (index % size))

theorem RingOf.put {buf : Nat → Byte} {size pos : Nat} {history : List Byte}
    (ring : RingOf buf size pos history) (byte : Byte) (space : pos < size) :
    RingOf (store buf pos [byte]) size (pos + 1) (history ++ [byte]) := by
  obtain ⟨_, ⟨count, length⟩, content⟩ := ring
  have here : history.length % size = pos := by
    rw [length, Nat.add_mul_mod_self_right, Nat.mod_eq_of_lt space]
  refine ⟨space, ⟨count, ?_⟩, ?_⟩
  · rw [List.length_append, List.length_singleton, length]
    omega
  · intro index below near
    rw [List.length_append, List.length_singleton] at below near
    by_cases last : index = history.length
    · rw [last, List.getElem?_concat_length, here]
      exact congrArg some (store_inside buf pos [byte] 0).symm
    · have older : index < history.length := by omega
      have apart : index % size ≠ pos := by
        intro same
        rw [← here] at same
        have equal := Nat.sub_mod_eq_zero_of_mod_eq same.symm
        have small : history.length - index < size := by omega
        rw [Nat.mod_eq_of_lt small] at equal
        omega
      rw [List.getElem?_append_left older, content index older (by omega)]
      congr 1
      symm
      apply store_outside
      rw [List.length_singleton]
      omega

theorem RingOf.offset {buf : Nat → Byte} {size pos dist : Nat}
    {history : List Byte} (ring : RingOf buf size pos history)
    (within : dist < min history.length size) :
    (if pos ≤ dist then pos + size - dist - 1 else pos - dist - 1) =
      (history.length - 1 - dist) % size := by
  obtain ⟨below, ⟨count, length⟩, _⟩ := ring
  by_cases beyond : pos ≤ dist
  · rw [if_pos beyond]
    cases count with
    | zero => omega
    | succ count =>
        have split : history.length - 1 - dist =
            (pos + size - dist - 1) + count * size := by
          rw [length, Nat.succ_mul]
          omega
        rw [split, Nat.add_mul_mod_self_right, Nat.mod_eq_of_lt (by omega)]
  · rw [if_neg beyond]
    have split : history.length - 1 - dist =
        (pos - dist - 1) + count * size := by
      rw [length]
      omega
    rw [split, Nat.add_mul_mod_self_right, Nat.mod_eq_of_lt (by omega)]

theorem RingOf.back {buf : Nat → Byte} {size pos dist : Nat}
    {history : List Byte} (ring : RingOf buf size pos history)
    (within : dist < min history.length size) :
    back history dist =
      some (buf ((history.length - 1 - dist) % size)) := by
  rw [back_of_lt history dist (by omega)]
  exact ring.content _ (by omega) (by omega)

theorem next_place (size place : Nat) (positive : 0 < size) :
    (if place % size + 1 = size then 0 else place % size + 1) =
      (place + 1) % size := by
  have small := Nat.mod_lt place positive
  rw [← Nat.mod_add_mod place size 1]
  by_cases last : place % size + 1 = size
  · rw [if_pos last, last, Nat.mod_self]
  · rw [if_neg last]
    exact (Nat.mod_eq_of_lt (by omega)).symm

/-- The loop copies byte by byte from the distance, also from what it wrote. -/
theorem RingOf.repeat {buf : Nat → Byte} {size pos dist : Nat}
    {history : List Byte} (left : Nat) (ring : RingOf buf size pos history)
    (within : dist < min history.length size) (space : pos + left ≤ size) :
    RingOf (repeatFrom size left buf pos ((history.length - 1 - dist) % size)).1
        size (pos + left) (copy dist left history) ∧
      (repeatFrom size left buf pos ((history.length - 1 - dist) % size)).2 =
        pos + left := by
  induction left generalizing buf pos history with
  | zero => exact ⟨ring, rfl⟩
  | succ left ih =>
      have positive : 0 < size := by omega
      have put := ring.put (buf ((history.length - 1 - dist) % size)) (by omega)
      have longer : (history ++ [buf ((history.length - 1 - dist) % size)]).length =
          history.length + 1 := by
        rw [List.length_append, List.length_singleton]
      have split : history.length - 1 - dist + 1 =
          (history ++ [buf ((history.length - 1 - dist) % size)]).length - 1 -
            dist := by
        rw [longer]
        omega
      have later := ih put (by rw [longer]; omega) (by omega)
      rw [repeatFrom, copy, ring.back within, Option.toList_some,
        next_place size _ positive, split, Nat.add_comm left 1, ← Nat.add_assoc]
      exact later

structure Remembers (dict : Dictionary) (history : List Byte) : Prop where
  ring : RingOf dict.buf dict.size dict.pos history
  full_eq : dict.full = min history.length dict.size
  pos_limit : dict.pos ≤ dict.limit
  limit_le : dict.limit ≤ dict.size

/-- What was put out is the history but for what is between `start` and
`pos`. -/
structure Flushed (dict : Dictionary) (history out : List Byte) : Prop where
  start_le : dict.start ≤ dict.pos
  length_eq : out.length + (dict.pos - dict.start) = history.length
  prefix_ : out <+: history

theorem full_put {full pos left size : Nat} {history : List Byte}
    (rounds : ∃ count, history.length = pos + count * size)
    (full_eq : full = min history.length size) (space : pos + left ≤ size) :
    (if full < pos + left then pos + left else full) =
      min (history.length + left) size := by
  obtain ⟨count, length⟩ := rounds
  cases count with
  | zero =>
      rw [Nat.zero_mul, Nat.add_zero] at length
      split <;> omega
  | succ count =>
      rw [Nat.succ_mul] at length
      split <;> omega

theorem Remembers.put {dict : Dictionary} {history : List Byte}
    (remembers : Remembers dict history) (byte : Byte)
    (space : dictHasSpace dict = true) :
    Remembers (dictPut dict byte) (history ++ [byte]) := by
  obtain ⟨ring, full_eq, _, limit_le⟩ := remembers
  have within : dict.pos < dict.limit := of_decide_eq_true space
  have room : dict.pos < dict.size := Nat.lt_of_lt_of_le within limit_le
  refine ⟨ring.put byte room, ?_, within, limit_le⟩
  rw [List.length_append, List.length_singleton]
  exact full_put ring.rounds full_eq room

theorem Flushed.put {dict : Dictionary} {history out : List Byte}
    (flushed : Flushed dict history out) (byte : Byte) :
    Flushed (dictPut dict byte) (history ++ [byte]) out := by
  obtain ⟨start_le, length_eq, prefix_⟩ := flushed
  refine ⟨Nat.le_succ_of_le start_le, ?_, prefix_.trans (List.prefix_append _ _)⟩
  rw [List.length_append, List.length_singleton]
  change out.length + (dict.pos + 1 - dict.start) = _
  omega

/-- A repetition is taken up to the limit; what is left of it can be taken
later. A distance beyond what is remembered is refused. -/
theorem dictRepeat_eq {dict : Dictionary} {history out : List Byte}
    (remembers : Remembers dict history) (flushed : Flushed dict history out)
    (len dist : Nat) (some_ : 0 < len) (space : dictHasSpace dict = true) :
    if dist < min history.length dict.size then
      ∃ after, dictRepeat dict len dist =
          some (len - min (dict.limit - dict.pos) len, after) ∧
        after.size = dict.size ∧ after.limit = dict.limit ∧
        after.start = dict.start ∧
        (after.pos = dict.limit ∨ len - min (dict.limit - dict.pos) len = 0) ∧
        Remembers after
          (copy dist (min (dict.limit - dict.pos) len) history) ∧
        Flushed after (copy dist (min (dict.limit - dict.pos) len) history) out
    else dictRepeat dict len dist = none := by
  obtain ⟨ring, full_eq, _, limit_le⟩ := remembers
  obtain ⟨start_le, length_eq, prefix_⟩ := flushed
  have below : dict.pos < dict.limit := of_decide_eq_true space
  unfold dictRepeat
  by_cases within : dist < min history.length dict.size
  · have left : 0 < min (dict.limit - dict.pos) len := by omega
    have room : dict.pos + min (dict.limit - dict.pos) len ≤ dict.size := by
      omega
    obtain ⟨ringed, reached⟩ :=
      ring.repeat (min (dict.limit - dict.pos) len) within room
    rw [if_pos within, if_neg (by rw [full_eq]; omega)]
    dsimp only
    rw [if_neg (Nat.ne_of_gt left), dictOffset, ring.offset within, reached]
    have longer := length_copy dist (min (dict.limit - dict.pos) len) history
      (by omega)
    refine ⟨_, rfl, rfl, rfl, rfl, ?_, ⟨ringed, ?_, ?_, limit_le⟩, ?_, ?_, ?_⟩
    · dsimp only
      omega
    · rw [longer]
      exact full_put ring.rounds full_eq room
    · dsimp only
      omega
    · exact Nat.le_trans start_le (Nat.le_add_right _ _)
    · rw [longer]
      dsimp only
      omega
    · exact prefix_.trans (prefix_copy _ _ _)
  · rw [if_neg within, if_pos (by rw [full_eq]; omega)]

theorem dictFlush_eq {dict : Dictionary} {history out : List Byte}
    (remembers : Remembers dict history) (flushed : Flushed dict history out) :
    out ++ (dictFlush dict).1 = history ∧
      (dictFlush dict).1.length = dict.pos - dict.start ∧
      Remembers (dictFlush dict).2 history ∧
      Flushed (dictFlush dict).2 history history ∧
      (dictFlush dict).2.size = dict.size := by
  obtain ⟨⟨pos_le, ⟨count, length⟩, content⟩, full_eq, pos_limit, limit_le⟩ :=
    remembers
  obtain ⟨start_le, length_eq, tail, split⟩ := flushed
  have missing : load dict.buf dict.start (dict.pos - dict.start) = tail := by
    have size : tail.length = dict.pos - dict.start := by
      rw [← split, List.length_append] at length_eq
      omega
    apply List.ext_getElem?
    intro index
    by_cases inside : index < dict.pos - dict.start
    · have place : (out.length + index) % dict.size = dict.start + index := by
        have round : out.length + index =
            dict.start + index + count * dict.size := by omega
        rw [round, Nat.add_mul_mod_self_right, Nat.mod_eq_of_lt (by omega)]
      have stands := content (out.length + index) (by omega) (by omega)
      rw [← split, List.getElem?_append_right (Nat.le_add_right _ _),
        Nat.add_sub_cancel_left, place] at stands
      rw [getElem?_load _ _ _ _ inside, stands]
    · rw [List.getElem?_eq_none (by rw [length_load]; omega),
        List.getElem?_eq_none (by omega)]
  refine ⟨?_, length_load _ _ _, ⟨?_, full_eq, ?_, limit_le⟩, ?_, rfl⟩
  · rw [← split]
    exact congrArg (out ++ ·) missing
  · unfold dictFlush
    dsimp only
    by_cases around : dict.pos = dict.size
    · rw [if_pos around]
      refine ⟨Nat.zero_le _, ⟨count + 1, ?_⟩, content⟩
      rw [length, around, Nat.succ_mul]
      omega
    · rw [if_neg around]
      exact ⟨pos_le, ⟨count, length⟩, content⟩
  · unfold dictFlush
    dsimp only
    split
    · exact Nat.zero_le _
    · exact pos_limit
  · refine ⟨Nat.le_refl _, ?_, List.prefix_rfl⟩
    exact (congrArg (history.length + ·) (Nat.sub_self _)).trans
      (Nat.add_zero _)

/-! ### The decoder -/

/-- The dictionary and a repetition that is not yet done. The symbols are those
that the range decoder will find. -/
structure Decoder where
  dict : Dictionary
  len : Nat
  rep0 : Nat
  coming : List (Symbol Byte)

/-- The loop of `lzma_main`, for as many symbols as there is input for. -/
def lzmaMainFrom : Nat → Decoder → Bool × Decoder
  | 0, s => (true, s)
  | input + 1, s =>
      if dictHasSpace s.dict then
        match s.coming with
        | [] => (true, s)
        | .literal byte :: coming =>
            lzmaMainFrom input
              { s with dict := dictPut s.dict byte, coming := coming }
        | .match_ len dist :: coming =>
            match dictRepeat s.dict len dist with
            | none =>
                (false, { s with len := len, rep0 := dist, coming := coming })
            | some (len, dict) =>
                lzmaMainFrom input
                  { dict := dict, len := len, rep0 := dist, coming := coming }
      else (true, s)

def lzmaMain (input : Nat) (s : Decoder) : Bool × Decoder :=
  let s :=
    if dictHasSpace s.dict ∧ 0 < s.len then
      match dictRepeat s.dict s.len s.rep0 with
      | none => s
      | some (len, dict) => { s with len := len, dict := dict }
    else s
  lzmaMainFrom input s

/-- The room of the caller's buffer and the symbols for which there is input. -/
structure Call where
  outMax : Nat
  input : Nat

/-- A pass of `SEQ_LZMA_RUN`: what is put out and the decoder; `none` is
`XZ_DATA_ERROR`. -/
def decodeCall (s : Decoder) (call : Call) : Option (List Byte × Decoder) :=
  let s := { s with dict := dictLimit s.dict call.outMax }
  match lzmaMain call.input s with
  | (false, _) => none
  | (true, s) =>
      let (out, dict) := dictFlush s.dict
      some (out, { s with dict := dict })

/-- What all calls put out until there is an error. -/
def decodeCalls : Decoder → List Call → List (List Byte) × Option Decoder
  | s, [] => ([], some s)
  | s, call :: calls =>
      match decodeCall s call with
      | none => ([], none)
      | some (out, s) =>
          let (outs, s) := decodeCalls s calls
          (out :: outs, s)

/-! ### Runs -/

structure Decodes (symbols : List (Symbol Byte)) (s : Decoder)
    (history out : List Byte) : Prop where
  consumed : ∃ consumed, symbols = consumed ++ s.coming ∧
    expand s.dict.size [] consumed = some (copy s.rep0 s.len history)
  pending : 0 < s.len → s.rep0 < min history.length s.dict.size
  remembers : Remembers s.dict history
  flushed : Flushed s.dict history out

/-- The next symbol goes beyond what is remembered. -/
def Refused (symbols : List (Symbol Byte)) (window : Nat) (out : List Byte) :
    Prop :=
  ∃ before len dist rest history,
    symbols = before ++ .match_ len dist :: rest ∧
      expand window [] before = some history ∧ out <+: history ∧
      min history.length window ≤ dist

structure SameLimits (dict after : Dictionary) : Prop where
  size : after.size = dict.size
  limit : after.limit = dict.limit
  start : after.start = dict.start

/-- Every repetition has a length. -/
def Lengthy (symbols : List (Symbol Byte)) : Prop :=
  ∀ len dist, .match_ len dist ∈ symbols → 0 < len

theorem expand_concat {window : Nat} {before : List (Symbol Byte)}
    {history : List Byte} (symbol : Symbol Byte)
    (spelled : expand window [] before = some history) :
    expand window [] (before ++ [symbol]) = expand window history [symbol] := by
  rw [expand_append, spelled, Option.bind_some]

theorem SameLimits.trans {first second third : Dictionary}
    (one : SameLimits first second) (two : SameLimits second third) :
    SameLimits first third :=
  ⟨two.size.trans one.size, two.limit.trans one.limit,
    two.start.trans one.start⟩

/-- What `lzma_main` comes to. -/
def Outcome (symbols : List (Symbol Byte)) (out : List Byte)
    (dict : Dictionary) : Bool × Decoder → Prop
  | (true, s) => ∃ history, Decodes symbols s history out ∧
      SameLimits dict s.dict
  | (false, _) => Refused symbols dict.size out

theorem Outcome.of_same {symbols : List (Symbol Byte)} {out : List Byte}
    {dict after : Dictionary} {result : Bool × Decoder}
    (outcome : Outcome symbols out after result)
    (same : SameLimits dict after) : Outcome symbols out dict result := by
  obtain ⟨ok, s⟩ := result
  cases ok with
  | true =>
      obtain ⟨history, decodes, limits⟩ := outcome
      exact ⟨history, decodes, same.trans limits⟩
  | false =>
      change Refused symbols dict.size out
      rw [← same.size]
      exact outcome

theorem Decodes.repeat {symbols : List (Symbol Byte)} {s : Decoder}
    {history out : List Byte} {consumed coming : List (Symbol Byte)}
    {len dist : Nat} (split : symbols = consumed ++ coming)
    (spelled : expand s.dict.size [] consumed = some (copy dist len history))
    (remembers : Remembers s.dict history)
    (flushed : Flushed s.dict history out) (some_ : 0 < len)
    (space : dictHasSpace s.dict = true)
    (within : dist < min history.length s.dict.size) :
    ∃ left dict later, dictRepeat s.dict len dist = some (left, dict) ∧
      SameLimits s.dict dict ∧
      (0 < left → dictHasSpace dict = false) ∧
      Decodes symbols ⟨dict, left, dist, coming⟩ later out := by
  have result := dictRepeat_eq remembers flushed len dist some_ space
  rw [if_pos within] at result
  obtain ⟨dict, done, size, limit, start, ends, remembers', flushed'⟩ := result
  refine ⟨_, dict, _, done, ⟨size, limit, start⟩, ?_,
    ⟨consumed, split, ?_⟩, ?_, remembers', flushed'⟩
  · intro busy
    have full : dict.pos = dict.limit := by omega
    exact decide_eq_false (by omega)
  · have parts : min (s.dict.limit - s.dict.pos) len +
        (len - min (s.dict.limit - s.dict.pos) len) = len := by omega
    dsimp only
    rw [size, ← copy_add, parts]
    exact spelled
  · intro busy
    dsimp only
    rw [size, length_copy _ _ _ (by omega)]
    omega

theorem lzmaMainFrom_decodes {symbols : List (Symbol Byte)} {out : List Byte}
    (lengthy : Lengthy symbols) (input : Nat) (s : Decoder)
    (history : List Byte) (decodes : Decodes symbols s history out)
    (stuck : 0 < s.len → dictHasSpace s.dict = false) :
    Outcome symbols out s.dict (lzmaMainFrom input s) := by
  induction input generalizing s history with
  | zero => exact ⟨history, decodes, rfl, rfl, rfl⟩
  | succ input ih =>
      rw [lzmaMainFrom]
      by_cases space : dictHasSpace s.dict = true
      · have idle : s.len = 0 := by
          by_contra busy
          have full := stuck (Nat.pos_of_ne_zero busy)
          rw [space] at full
          cases full
        rw [if_pos space]
        cases coming : s.coming with
        | nil => exact ⟨history, decodes, rfl, rfl, rfl⟩
        | cons symbol rest =>
            obtain ⟨⟨consumed, split, spelled⟩, pending, remembers, flushed⟩ :=
              decodes
            rw [idle, copy] at spelled
            rw [coming] at split
            have split' : symbols = (consumed ++ [symbol]) ++ rest := by
              rw [split, List.append_assoc, List.singleton_append]
            cases symbol with
            | literal byte =>
                have next := ih
                  { s with dict := dictPut s.dict byte, coming := rest }
                  (history ++ [byte])
                  ⟨⟨consumed ++ [.literal byte], split', by
                      rw [idle, copy]
                      exact expand_concat (.literal byte) spelled⟩,
                    fun busy => absurd idle (Nat.ne_of_gt busy),
                    remembers.put byte space, flushed.put byte⟩
                  (fun busy => absurd idle (Nat.ne_of_gt busy))
                exact next.of_same ⟨rfl, rfl, rfl⟩
            | match_ len dist =>
                dsimp only
                have some_ : 0 < len := lengthy len dist (by
                  rw [split]
                  simp)
                by_cases within : dist < min history.length s.dict.size
                · have spelled' : expand s.dict.size []
                      (consumed ++ [.match_ len dist]) =
                        some (copy dist len history) := by
                    rw [expand_concat _ spelled, expand, if_pos within, expand]
                  obtain ⟨left, dict, later, done, same, full, decodes'⟩ :=
                    Decodes.repeat split' spelled' remembers flushed some_ space
                      within
                  rw [done]
                  exact (ih _ later decodes' full).of_same same
                · have refused :=
                    dictRepeat_eq remembers flushed len dist some_ space
                  rw [if_neg within] at refused
                  rw [refused]
                  exact ⟨consumed, len, dist, rest, history, split, spelled,
                    flushed.prefix_, by omega⟩
      · rw [if_neg space]
        exact ⟨history, decodes, rfl, rfl, rfl⟩

theorem lzmaMain_decodes {symbols : List (Symbol Byte)} {out : List Byte}
    (lengthy : Lengthy symbols) (input : Nat) (s : Decoder)
    (history : List Byte) (decodes : Decodes symbols s history out) :
    Outcome symbols out s.dict (lzmaMain input s) := by
  unfold lzmaMain
  by_cases goes : dictHasSpace s.dict = true ∧ 0 < s.len
  · obtain ⟨space, busy⟩ := goes
    obtain ⟨⟨consumed, split, spelled⟩, pending, remembers, flushed⟩ := decodes
    obtain ⟨left, dict, later, done, same, full, decodes'⟩ :=
      Decodes.repeat split spelled remembers flushed busy space (pending busy)
    rw [if_pos ⟨space, busy⟩, done]
    exact (lzmaMainFrom_decodes lengthy input _ later decodes' full).of_same same
  · rw [if_neg goes]
    apply lzmaMainFrom_decodes lengthy input s history decodes
    intro busy
    cases space : dictHasSpace s.dict with
    | false => rfl
    | true => exact absurd ⟨space, busy⟩ goes

structure Between (symbols : List (Symbol Byte)) (s : Decoder)
    (history : List Byte) : Prop where
  decodes : Decodes symbols s history history
  started : s.dict.start = s.dict.pos

theorem Decodes.limit {symbols : List (Symbol Byte)} {s : Decoder}
    {history out : List Byte} (decodes : Decodes symbols s history out)
    (outMax : Nat) :
    Decodes symbols { s with dict := dictLimit s.dict outMax } history out ∧
      (dictLimit s.dict outMax).limit ≤ s.dict.pos + outMax ∧
      (dictLimit s.dict outMax).start = s.dict.start ∧
      (dictLimit s.dict outMax).size = s.dict.size := by
  obtain ⟨consumed, pending, ⟨ring, full_eq, pos_limit, limit_le⟩, flushed⟩ :=
    decodes
  have pos_le := ring.pos_le
  unfold dictLimit
  split
  · exact ⟨⟨consumed, pending, ⟨ring, full_eq, pos_le, Nat.le_refl _⟩,
      ⟨flushed.start_le, flushed.length_eq, flushed.prefix_⟩⟩, by
        dsimp only
        omega, rfl, rfl⟩
  · exact ⟨⟨consumed, pending, ⟨ring, full_eq, by
        dsimp only
        omega, by
        dsimp only
        omega⟩,
      ⟨flushed.start_le, flushed.length_eq, flushed.prefix_⟩⟩,
      Nat.le_refl _, rfl, rfl⟩

theorem decodeCall_spec {symbols : List (Symbol Byte)} {s : Decoder}
    {history : List Byte} (lengthy : Lengthy symbols)
    (between : Between symbols s history) (call : Call) :
    match decodeCall s call with
    | none => Refused symbols s.dict.size history
    | some (out, after) =>
        out.length ≤ call.outMax ∧ Between symbols after (history ++ out) ∧
          after.dict.size = s.dict.size := by
  obtain ⟨decodes, started⟩ := between
  obtain ⟨limited, room, start, size⟩ := decodes.limit call.outMax
  have outcome := lzmaMain_decodes lengthy call.input _ history limited
  unfold decodeCall
  dsimp only
  generalize lzmaMain call.input _ = result at outcome
  obtain ⟨ok, after⟩ := result
  cases ok with
  | false =>
      rw [← size]
      exact outcome
  | true =>
      obtain ⟨later, decodes', same⟩ := outcome
      obtain ⟨whole, length, remembers, flushed, size'⟩ :=
        dictFlush_eq decodes'.remembers decodes'.flushed
      dsimp only at same length ⊢
      refine ⟨?_, ⟨⟨?_, ?_, ?_, ?_⟩, rfl⟩, ?_⟩
      · have pos_limit := decodes'.remembers.pos_limit
        have same_limit := same.limit
        have same_start := same.start
        rw [length]
        omega
      · obtain ⟨consumed, split, spelled⟩ := decodes'.consumed
        exact ⟨consumed, split, by
          rw [whole, size']
          exact spelled⟩
      · rw [whole, size']
        exact decodes'.pending
      · rw [whole]
        exact remembers
      · rw [whole]
        exact flushed
      · rw [size', same.size, size]

theorem decodeCalls_spec {symbols : List (Symbol Byte)}
    (lengthy : Lengthy symbols) (calls : List Call) (s : Decoder)
    (history : List Byte) (between : Between symbols s history) :
    List.Forall₂ (fun out call => out.length ≤ call.outMax)
        (decodeCalls s calls).1
        (calls.take (decodeCalls s calls).1.length) ∧
      match (decodeCalls s calls).2 with
      | none => Refused symbols s.dict.size
          (history ++ (decodeCalls s calls).1.flatten)
      | some after =>
          Between symbols after (history ++ (decodeCalls s calls).1.flatten) ∧
            after.dict.size = s.dict.size := by
  induction calls generalizing s history with
  | nil =>
      rw [decodeCalls, List.flatten_nil, List.append_nil]
      exact ⟨.nil, between, rfl⟩
  | cons call calls ih =>
      have step := decodeCall_spec lengthy between call
      rw [decodeCalls]
      cases made : decodeCall s call with
      | none =>
          rw [made] at step
          dsimp only
          rw [List.flatten_nil, List.append_nil]
          exact ⟨.nil, step⟩
      | some result =>
          obtain ⟨out, after⟩ := result
          rw [made] at step
          obtain ⟨short, between', size⟩ := step
          obtain ⟨shorts, ends⟩ := ih after (history ++ out) between'
          dsimp only
          rw [List.flatten_cons, ← List.append_assoc, ← size]
          exact ⟨.cons short shorts, ends⟩

/-- Whatever the calls' rooms and inputs are, what they put out one after the
other is what the symbols spell, up to a repetition that is still going on; and
the decoder stops only before a distance that goes beyond what was put out or
beyond the dictionary. -/
theorem output_is_expansion (symbols : List (Symbol Byte)) (dict : Dictionary)
    (rep0 : Nat) (lengthy : Lengthy symbols) (calls : List Call) :
    List.Forall₂ (fun out call => out.length ≤ call.outMax)
        (decodeCalls ⟨dictReset dict, 0, rep0, symbols⟩ calls).1
        (calls.take
          (decodeCalls ⟨dictReset dict, 0, rep0, symbols⟩ calls).1.length) ∧
      match (decodeCalls ⟨dictReset dict, 0, rep0, symbols⟩ calls).2 with
      | none => Refused symbols dict.size
          (decodeCalls ⟨dictReset dict, 0, rep0, symbols⟩ calls).1.flatten
      | some after => ∃ consumed, symbols = consumed ++ after.coming ∧
          expand dict.size [] consumed = some (copy after.rep0 after.len
            (decodeCalls ⟨dictReset dict, 0, rep0, symbols⟩ calls).1.flatten) := by
  have started : Between symbols ⟨dictReset dict, 0, rep0, symbols⟩ [] := by
    refine ⟨⟨⟨[], rfl, rfl⟩, fun busy => absurd busy (Nat.lt_irrefl 0),
      ⟨⟨Nat.zero_le _, ⟨0, ?_⟩, ?_⟩, ?_, Nat.le_refl _, Nat.zero_le _⟩,
      ⟨Nat.le_refl _, rfl, List.prefix_rfl⟩⟩, rfl⟩
    · change 0 = 0 + 0 * dict.size
      rw [Nat.zero_mul]
    · intro index below
      exact absurd below (Nat.not_lt_zero index)
    · exact (Nat.zero_min _).symm
  obtain ⟨shorts, ends⟩ := decodeCalls_spec lengthy calls _ [] started
  rw [List.nil_append] at ends
  refine ⟨shorts, ?_⟩
  split at ends
  · exact ends
  · obtain ⟨⟨⟨⟨consumed, split, spelled⟩, _⟩, _⟩, size⟩ := ends
    rw [size] at spelled
    exact ⟨consumed, split, spelled⟩

/-- A repetition over its own bytes, in two calls. -/
theorem output_is_expansion_overlapping :
    Lengthy [.literal 7, .match_ 5 0] ∧
      (decodeCalls
          ⟨dictReset ⟨fun _ => 0, 0, 0, 0, 0, 4⟩, 0, 0,
            [.literal 7, .match_ 5 0]⟩ [⟨3, 9⟩, ⟨1, 9⟩]).1 =
        [[7, 7, 7], [7]] ∧
      match (decodeCalls
          ⟨dictReset ⟨fun _ => 0, 0, 0, 0, 0, 4⟩, 0, 0,
            [.literal 7, .match_ 5 0]⟩ [⟨3, 9⟩, ⟨1, 9⟩]).2 with
      | none => Refused [.literal 7, .match_ 5 0] 4 [7, 7, 7, 7]
      | some after => ∃ consumed,
          [.literal 7, .match_ 5 0] = consumed ++ after.coming ∧
            expand 4 [] consumed =
              some (copy after.rep0 after.len [7, 7, 7, 7]) := by
  have lengthy : Lengthy [.literal 7, .match_ 5 0] := by
    intro len dist member
    simp at member
    omega
  obtain ⟨_, ends⟩ := output_is_expansion [.literal 7, .match_ 5 0]
    ⟨fun _ => 0, 0, 0, 0, 0, 4⟩ 0 lengthy [⟨3, 9⟩, ⟨1, 9⟩]
  exact ⟨lengthy, rfl, ends⟩

end XR872.Xz
