/-
The client of an MQTT broker.

One cycle reads a packet, hands a message to the handlers whose filter takes its
topic and answers it. The loop over a filter compares characters; levels are
compared here.
-/

import XR872.Mqtt.Stream

namespace XR872.Mqtt

open BitView
open Memories

/-! ### Topics -/

/-- `'/'`. -/
def separator : Byte := 47#8

/-- `'+'`. -/
def anyLevel : Byte := 43#8

/-- `'#'`. -/
def anyLevels : Byte := 35#8

/-- The loop of `isTopicMatched`, from what is left of the filter and the
name on. -/
def isTopicMatchedFrom : List Byte → List Byte → Bool
  | f :: curf, n :: curn =>
      if n = separator ∧ f ≠ separator then false
      else if f ≠ anyLevel ∧ f ≠ anyLevels ∧ f ≠ n then false
      else if f = anyLevel then
        -- skip until the next separator, or the end
        isTopicMatchedFrom curf (curn.dropWhile fun char => char ≠ separator)
      else if f = anyLevels then isTopicMatchedFrom curf []
      else isTopicMatchedFrom curf curn
  | curf, curn => curn.isEmpty && curf.isEmpty

def isTopicMatched (topicFilter topicName : List Byte) : Bool :=
  isTopicMatchedFrom topicFilter topicName

/-! ### Levels -/

def levels (text : List Byte) : List (List Byte) := text.splitOn separator

/-- A level without wildcards. -/
def Plain (level : List Byte) : Prop :=
  anyLevel ∉ level ∧ anyLevels ∉ level

/-- Wildcards stand alone in their level, and that for many levels is the
last. -/
def FilterFormed : List (List Byte) → Prop
  | [] => True
  | [last] => last = [anyLevels] ∨ last = [anyLevel] ∨ Plain last
  | level :: rest => (level = [anyLevel] ∨ Plain level) ∧ FilterFormed rest

def LevelMatch (filter name : List Byte) : Prop :=
  if filter = [anyLevel] then name ≠ [] else filter = name

/-- The wildcard for many levels takes one that is not empty and all behind
it. -/
def LevelsMatch : List (List Byte) → List (List Byte) → Prop
  | [], [] => True
  | filter :: filters, name :: names =>
      if filter = [anyLevels] then name ≠ []
      else LevelMatch filter name ∧ LevelsMatch filters names
  | _, _ => False

/-- The first level, which is all there is or has a separator behind it. -/
theorem levels_cases (text : List Byte) :
    (separator ∉ text ∧ levels text = [text]) ∨
      ∃ level rest, separator ∉ level ∧ text = level ++ separator :: rest ∧
        levels text = level :: levels rest := by
  by_cases inside : separator ∈ text
  · obtain ⟨level, rest, split, before⟩ := List.eq_append_cons_of_mem inside
    refine Or.inr ⟨level, rest, before, split, ?_⟩
    rw [levels, split]
    exact List.splitOn_append_cons_self_of_not_mem before rest
  · exact Or.inl ⟨inside, List.splitOn_eq_singleton inside⟩

/-! ### What the loop does with a level -/

theorem matched_separator (curf name : List Byte) :
    isTopicMatchedFrom (separator :: curf) name = true ↔
      ∃ rest, name = separator :: rest ∧
        isTopicMatchedFrom curf rest = true := by
  cases name with
  | nil =>
      constructor
      · intro matched
        cases matched
      · intro ⟨rest, same, _⟩
        cases same
  | cons n curn =>
      rw [isTopicMatchedFrom, if_neg (fun both => both.2 rfl)]
      by_cases same : separator = n
      · rw [if_neg (fun apart => apart.2.2 same), if_neg (by decide),
          if_neg (by decide), ← same]
        constructor
        · intro matched
          exact ⟨curn, rfl, matched⟩
        · intro ⟨rest, equal, matched⟩
          rw [(List.cons.inj equal).2]
          exact matched
      · rw [if_pos ⟨by decide, by decide, same⟩]
        constructor
        · intro matched
          cases matched
        · intro ⟨rest, equal, _⟩
          exact absurd (List.cons.inj equal).1.symm same

theorem matched_plain (level curf name : List Byte) (plain : Plain level)
    (apart : separator ∉ level) :
    isTopicMatchedFrom (level ++ curf) name = true ↔
      ∃ rest, name = level ++ rest ∧ isTopicMatchedFrom curf rest = true := by
  induction level generalizing name with
  | nil =>
      constructor
      · intro matched
        exact ⟨name, rfl, matched⟩
      · intro ⟨rest, same, matched⟩
        rw [same]
        exact matched
  | cons f level ih =>
      have noPlus : f ≠ anyLevel := fun same =>
        plain.1 (same ▸ List.mem_cons_self)
      have noHash : f ≠ anyLevels := fun same =>
        plain.2 (same ▸ List.mem_cons_self)
      have noSlash : f ≠ separator := fun same =>
        apart (same ▸ List.mem_cons_self)
      have next := fun name => ih name
        ⟨fun member => plain.1 (List.mem_cons_of_mem _ member),
          fun member => plain.2 (List.mem_cons_of_mem _ member)⟩
        (fun member => apart (List.mem_cons_of_mem _ member))
      cases name with
      | nil =>
          constructor
          · intro matched
            cases matched
          · intro ⟨rest, same, _⟩
            cases same
      | cons n curn =>
          rw [List.cons_append, isTopicMatchedFrom]
          by_cases same : f = n
          · rw [if_neg (fun both => noSlash (same.trans both.1)),
              if_neg (fun all => all.2.2 same), if_neg noPlus, if_neg noHash,
              next curn]
            constructor
            · intro ⟨rest, split, matched⟩
              exact ⟨rest, by rw [same, split, List.cons_append], matched⟩
            · intro ⟨rest, split, matched⟩
              exact ⟨rest, (List.cons.inj split).2, matched⟩
          · have refused : ¬ ∃ rest, n :: curn = f :: level ++ rest ∧
                isTopicMatchedFrom curf rest = true := by
              intro ⟨rest, split, _⟩
              exact same (List.cons.inj split).1.symm
            constructor
            · intro matched
              split at matched
              · cases matched
              · rw [if_pos ⟨noPlus, noHash, same⟩] at matched
                cases matched
            · intro found
              exact absurd found refused

theorem matched_anyLevel (curf level rest : List Byte)
    (apart : separator ∉ level)
    (ended : rest = [] ∨ ∃ tail, rest = separator :: tail) :
    isTopicMatchedFrom (anyLevel :: curf) (level ++ rest) = true ↔
      level ≠ [] ∧ isTopicMatchedFrom curf rest = true := by
  cases level with
  | nil =>
      rw [List.nil_append]
      cases ended with
      | inl nothing =>
          rw [nothing]
          exact iff_of_false Bool.false_ne_true (fun both => both.1 rfl)
      | inr behind =>
          obtain ⟨tail, split⟩ := behind
          rw [split, isTopicMatchedFrom, if_pos ⟨rfl, by decide⟩]
          exact iff_of_false Bool.false_ne_true (fun both => both.1 rfl)
  | cons n level =>
      have first : n ≠ separator := fun same =>
        apart (same ▸ List.mem_cons_self)
      have inside : ∀ char ∈ level, decide (char ≠ separator) = true := by
        intro char member
        apply decide_eq_true
        intro same
        exact apart (List.mem_cons_of_mem _ (same ▸ member))
      have skipped : (level ++ rest).dropWhile
          (fun char => decide (char ≠ separator)) = rest := by
        rw [List.dropWhile_append_of_pos inside]
        cases ended with
        | inl nothing =>
            rw [nothing, List.dropWhile_nil]
        | inr behind =>
            obtain ⟨tail, split⟩ := behind
            rw [split]
            exact List.dropWhile_cons_of_neg (by decide)
      rw [List.cons_append, isTopicMatchedFrom, if_neg (fun both => first both.1),
        if_neg (fun all => all.1 rfl), if_pos rfl, skipped]
      exact (and_iff_right (List.cons_ne_nil n level)).symm

theorem matched_anyLevels (name : List Byte) :
    isTopicMatchedFrom [anyLevels] name = true ↔
      ∃ first rest, name = first :: rest ∧ first ≠ separator := by
  cases name with
  | nil =>
      constructor
      · intro matched
        cases matched
      · intro ⟨_, _, same, _⟩
        cases same
  | cons n curn =>
      rw [isTopicMatchedFrom]
      by_cases same : n = separator
      · rw [if_pos ⟨same, by decide⟩]
        constructor
        · intro matched
          cases matched
        · intro ⟨first, rest, split, other⟩
          exact absurd ((List.cons.inj split).1.symm.trans same) other
      · rw [if_neg (fun both => same both.1), if_neg (fun all => all.2.1 rfl),
          if_neg (by decide), if_pos rfl]
        exact iff_of_true rfl ⟨n, curn, rfl, same⟩

theorem matched_nil (name : List Byte) :
    isTopicMatchedFrom [] name = true ↔ name = [] := by
  cases name with
  | nil => exact iff_of_true rfl rfl
  | cons n curn =>
      constructor
      · intro matched
        cases matched
      · intro same
        cases same

/-! ### Levels of a filter -/

theorem levelMatch_any (name : List Byte) :
    LevelMatch [anyLevel] name ↔ name ≠ [] := by
  rw [LevelMatch, if_pos rfl]

theorem levelMatch_plain {filter : List Byte} (plain : Plain filter)
    (name : List Byte) : LevelMatch filter name ↔ filter = name := by
  have other : filter ≠ [anyLevel] := by
    intro same
    exact plain.1 (same ▸ List.mem_singleton.mpr rfl)
  rw [LevelMatch, if_neg other]

theorem plain_ne_anyLevels {level : List Byte} (plain : Plain level) :
    level ≠ [anyLevels] := by
  intro same
  exact plain.2 (same ▸ List.mem_singleton.mpr rfl)

theorem matched_last (last name : List Byte)
    (formed : last = [anyLevels] ∨ last = [anyLevel] ∨ Plain last)
    (apart : separator ∉ last) :
    isTopicMatchedFrom last name = true ↔
      LevelsMatch [last] (levels name) := by
  obtain many | one | plain := formed
  · rw [many, matched_anyLevels]
    obtain ⟨whole, split⟩ | ⟨level, rest, before, split, more⟩ :=
      levels_cases name
    · rw [split, LevelsMatch, if_pos rfl]
      constructor
      · intro ⟨first, rest, same, _⟩
        rw [same]
        exact List.cons_ne_nil first rest
      · intro filled
        obtain ⟨first, rest, same⟩ := List.exists_cons_of_ne_nil filled
        exact ⟨first, rest, same, fun slash =>
          whole (same ▸ slash ▸ List.mem_cons_self)⟩
    · rw [more, LevelsMatch, if_pos rfl]
      cases level with
      | nil =>
          apply iff_of_false
          · intro ⟨first, others, same, slash⟩
            rw [split] at same
            exact slash (List.cons.inj same).1.symm
          · exact fun filled => filled rfl
      | cons first others =>
          refine iff_of_true ⟨first, _, split, ?_⟩ (List.cons_ne_nil _ _)
          exact fun slash => before (slash ▸ List.mem_cons_self)
  · rw [one]
    obtain ⟨whole, split⟩ | ⟨level, rest, before, split, more⟩ :=
      levels_cases name
    · have matched := matched_anyLevel [] name [] whole (Or.inl rfl)
      rw [List.append_nil] at matched
      rw [matched, split, LevelsMatch, if_neg (by decide), levelMatch_any]
      exact and_congr_right fun _ => iff_of_true rfl trivial
    · have matched := matched_anyLevel [] level (separator :: rest) before
        (Or.inr ⟨rest, rfl⟩)
      obtain ⟨next, others, there⟩ :=
        List.exists_cons_of_ne_nil (List.splitOn_ne_nil separator rest)
      rw [split, matched, ← split, more, levels, there, LevelsMatch,
        if_neg (by decide), levelMatch_any]
      exact and_congr_right fun _ => iff_of_false Bool.false_ne_true id
  · have matched := matched_plain last [] name plain apart
    have notMany := plain_ne_anyLevels plain
    rw [List.append_nil] at matched
    rw [matched]
    obtain ⟨whole, split⟩ | ⟨level, rest, before, split, more⟩ :=
      levels_cases name
    · rw [split, LevelsMatch, if_neg notMany, levelMatch_plain plain]
      constructor
      · intro ⟨rest, same, ended⟩
        rw [(matched_nil rest).mp ended, List.append_nil] at same
        exact ⟨same.symm, trivial⟩
      · intro ⟨same, _⟩
        exact ⟨[], by rw [same, List.append_nil], rfl⟩
    · obtain ⟨next, others, there⟩ :=
        List.exists_cons_of_ne_nil (List.splitOn_ne_nil separator rest)
      rw [more, levels, there, LevelsMatch, if_neg notMany, levelMatch_plain plain]
      apply iff_of_false
      · intro ⟨behind, same, ended⟩
        rw [(matched_nil behind).mp ended, List.append_nil] at same
        rw [same] at split
        exact apart (split ▸ List.mem_append_right level List.mem_cons_self)
      · exact fun both => both.2

theorem matched_level (level curf name : List Byte)
    (formed : level = [anyLevel] ∨ Plain level) (apart : separator ∉ level) :
    isTopicMatchedFrom (level ++ separator :: curf) name = true ↔
      ∃ first rest, separator ∉ first ∧ name = first ++ separator :: rest ∧
        LevelMatch level first ∧ isTopicMatchedFrom curf rest = true := by
  cases formed with
  | inl one =>
      rw [one, List.singleton_append]
      constructor
      · intro matched
        obtain ⟨whole, _⟩ | ⟨first, rest, before, split, _⟩ := levels_cases name
        · rw [← List.append_nil name,
            matched_anyLevel _ name [] whole (Or.inl rfl)] at matched
          obtain ⟨_, same, _⟩ := (matched_separator curf []).mp matched.2
          cases same
        · rw [split, matched_anyLevel _ first _ before (Or.inr ⟨rest, rfl⟩)]
            at matched
          obtain ⟨filled, behind⟩ := matched
          obtain ⟨other, same, matched⟩ := (matched_separator curf _).mp behind
          rw [← (List.cons.inj same).2] at matched
          exact ⟨first, rest, before, split, (levelMatch_any first).mpr filled,
            matched⟩
      · intro ⟨first, rest, before, split, filled, matched⟩
        rw [split, matched_anyLevel _ first _ before (Or.inr ⟨rest, rfl⟩)]
        exact ⟨(levelMatch_any first).mp filled,
          (matched_separator curf _).mpr ⟨rest, rfl, matched⟩⟩
  | inr plain =>
      rw [matched_plain level _ name plain apart]
      constructor
      · intro ⟨behind, split, matched⟩
        obtain ⟨rest, same, matched⟩ := (matched_separator curf behind).mp matched
        exact ⟨level, rest, apart, same ▸ split,
          (levelMatch_plain plain level).mpr rfl, matched⟩
      · intro ⟨first, rest, _, split, taken, matched⟩
        have same := (levelMatch_plain plain first).mp taken
        exact ⟨separator :: rest, same ▸ split,
          (matched_separator curf _).mpr ⟨rest, rfl, matched⟩⟩

theorem matched_levels (filter : List (List Byte)) (name : List Byte)
    (some_ : filter ≠ []) (formed : FilterFormed filter)
    (apart : ∀ level ∈ filter, separator ∉ level) :
    isTopicMatchedFrom ([separator].intercalate filter) name = true ↔
      LevelsMatch filter (levels name) := by
  induction filter generalizing name with
  | nil => exact absurd rfl some_
  | cons level rest ih =>
      obtain ⟨first, others⟩ := List.forall_mem_cons.mp apart
      cases rest with
      | nil =>
          rw [List.intercalate_singleton]
          exact matched_last level name formed first
      | cons next rest =>
          obtain ⟨here, behind⟩ := formed
          have notMany : level ≠ [anyLevels] := by
            cases here with
            | inl one =>
                rw [one]
                decide
            | inr plain => exact plain_ne_anyLevels plain
          have later := fun name =>
            ih name (List.cons_ne_nil next rest) behind others
          rw [List.intercalate_cons_cons, List.append_assoc,
            List.singleton_append, matched_level level _ name here first]
          obtain ⟨whole, split⟩ | ⟨found, tail, before, split, more⟩ :=
            levels_cases name
          · rw [split, LevelsMatch, if_neg notMany]
            apply iff_of_false
            · intro ⟨_, _, _, same, _⟩
              exact whole (same ▸ List.mem_append_right _ List.mem_cons_self)
            · exact fun both => both.2
          · rw [more, LevelsMatch, if_neg notMany, ← later tail]
            constructor
            · intro ⟨first, rest, none_, same, taken, matched⟩
              have equal := more
              rw [same, levels, List.splitOn_append_cons_self_of_not_mem none_]
                at equal
              have firsts := (List.cons.inj equal).1
              rw [split, firsts] at same
              have tails := List.cons.inj (List.append_cancel_left same)
              rw [firsts] at taken
              rw [tails.2]
              exact ⟨taken, matched⟩
            · intro ⟨taken, matched⟩
              exact ⟨found, tail, before, split, taken, matched⟩

theorem levels_apart (text level : List Byte) (member : level ∈ levels text) :
    separator ∉ level := by
  induction count : text.length using Nat.strongRecOn generalizing text with
  | ind count ih =>
      obtain ⟨whole, single⟩ | ⟨first, rest, before, split, more⟩ :=
        levels_cases text
      · rw [single, List.mem_singleton] at member
        rw [member]
        exact whole
      · rw [more, List.mem_cons] at member
        cases member with
        | inl same =>
            rw [same]
            exact before
        | inr later =>
            refine ih rest.length ?_ rest later rfl
            rw [← count, split, List.length_append, List.length_cons]
            omega

/-- For a filter in the right format the loop finds out whether the levels
match. -/
theorem isTopicMatched_iff (topicFilter topicName : List Byte)
    (formed : FilterFormed (levels topicFilter)) :
    isTopicMatched topicFilter topicName = true ↔
      LevelsMatch (levels topicFilter) (levels topicName) := by
  have whole : [separator].intercalate (topicFilter.splitOn separator) =
      topicFilter := List.intercalate_splitOn separator
  have matched := matched_levels (levels topicFilter) topicName
    (List.splitOn_ne_nil separator topicFilter) formed
    (levels_apart topicFilter)
  rw [levels, whole] at matched
  exact matched

/-- `a/+/#` takes `a/b/c/d`. -/
theorem isTopicMatched_iff_wildcards :
    isTopicMatched [97, 47, 43, 47, 35] [97, 47, 98, 47, 99, 47, 100] = true := by
  have filter : levels [97, 47, 43, 47, 35] = [[97], [43], [35]] := by decide
  have name : levels [97, 47, 98, 47, 99, 47, 100] =
      [[97], [98], [99], [100]] := by decide
  have formed : FilterFormed (levels [97, 47, 43, 47, 35]) := by
    rw [filter]
    exact ⟨Or.inr ⟨by decide, by decide⟩, Or.inl rfl, Or.inl rfl⟩
  apply (isTopicMatched_iff _ _ formed).mpr
  rw [filter, name]
  simp [LevelsMatch, LevelMatch, anyLevel, anyLevels]

/-! ### Cycles -/

def SUCCESS : Int := 0

/-- An entry of `messageHandlers`; functions are numbered. -/
structure MessageHandlers where
  topicFilter : Option (List Byte)
  fp : Option Nat
deriving DecidableEq

/-- What the surroundings of the client see. -/
inductive Event
  | called (fp : Nat) (topic payload : List Byte) (payloadlen : Int)
  /-- A packet that was to be sent, the result, and what went out. -/
  | sent (packet : List Byte) (rc : Int) (wire : List Byte)
deriving DecidableEq

/-- What a cycle uses of `struct Client`. -/
structure Client where
  receiver : Receiver
  buf : Nat
  bufSize : Nat
  keepAliveInterval : Nat
  pingOutstanding : Bool
  messageHandlers : Fin 5 → MessageHandlers
  defaultMessageHandler : Option Nat
  log : List Event

/-- What the surroundings do in a cycle: the reads, the results of `mqttwrite`
for the answer until the time is over, whether `ping_timer` is over, and the
results of `mqttwrite` for the ping. -/
structure Surroundings where
  arrivals : Arrivals
  writes : List Int
  pingExpired : Bool
  pingWrites : List Int

/-! ### Sending -/

/-- The loop of `sendPacket`: the result and what went out. A write is for the
whole length again, from the place that was reached. -/
def sendPacketFrom (memory : Nat → Byte) (buf length : Nat) :
    List Int → Nat → List Byte → Int × List Byte
  | [], sent, wire => (if sent = length then SUCCESS else FAILURE, wire)
  | rc :: writes, sent, wire =>
      if sent < length then
        if rc < 0 then (FAILURE, wire)
        else
          let count := min rc.toNat length
          sendPacketFrom memory buf length writes (sent + count)
            (wire ++ load memory (buf + sent) count)
      else (if sent = length then SUCCESS else FAILURE, wire)

def sendPacket (client : Client) (length : Nat) (writes : List Int) :
    Int × Client :=
  let memory := client.receiver.memory
  let (rc, wire) := sendPacketFrom memory client.buf length writes 0 []
  (rc, { client with
    log := client.log ++ [.sent (load memory client.buf length) rc wire] })

/-- A serializer fills the buffer, then the packet is sent. -/
def serializeAndSend (client : Client) (result : Int × (Nat → Byte))
    (writes : List Int) : Int × Client :=
  let client :=
    { client with receiver := { client.receiver with memory := result.2 } }
  if result.1 ≤ 0 then (FAILURE, client)
  else sendPacket client result.1.toNat writes

/-! ### Handing over -/

/-- `MQTTPacket_equals` for a topic with a length. -/
def mqttPacketEquals (topicName topicFilter : List Byte) : Bool :=
  topicName = topicFilter

/-- The functions that `deliverMessage` calls. -/
def handlersFor (messageHandlers : Fin 5 → MessageHandlers)
    (defaultMessageHandler : Option Nat) (topicName : List Byte) : List Nat :=
  let called := (List.finRange 5).filterMap fun index =>
    match (messageHandlers index).topicFilter with
    | none => none
    | some topicFilter =>
        if mqttPacketEquals topicName topicFilter ||
            isTopicMatched topicFilter topicName then
          (messageHandlers index).fp
        else none
  if called.isEmpty then defaultMessageHandler.toList else called

def deliverMessage (client : Client) (published : Published) : Client :=
  let memory := client.receiver.memory
  let topicName := published.topicName.text memory
  let payload := load memory published.payload published.payloadlen.toNat
  { client with
    log := client.log ++
      (handlersFor client.messageHandlers client.defaultMessageHandler
        topicName).map fun fp =>
          .called fp topicName payload published.payloadlen }

/-! ### A cycle -/

def keepalive (client : Client) (around : Surroundings) : Client :=
  if client.keepAliveInterval = 0 then client
  else if around.pingExpired then
    if client.pingOutstanding then client
    else
      let (rc, client) := serializeAndSend client
        (mqttSerializePingreq client.receiver.memory client.buf client.bufSize)
        around.pingWrites
      if rc = SUCCESS then { client with pingOutstanding := true } else client
  else client

/-- The answer to a message; `none` is for data that were never set. -/
def cyclePublish (client : Client) (writes : List Int) :
    Option (Bool × Int × Client) :=
  match mqttDeserializePublish client.receiver.memory
      client.receiver.readbuf with
  | (rc, published) =>
      if rc ≠ 1 then some (false, SUCCESS, client)
      else
        published.map fun published =>
          let client := deliverMessage client published
          if published.qos ≠ 0 then
            let id := published.packetid.getD 0
            let packet :=
              if published.qos = 1 then
                mqttSerializeAck client.receiver.memory client.buf
                  client.bufSize (PUBACK.setWidth 8) 0 id
              else if published.qos = 2 then
                mqttSerializeAck client.receiver.memory client.buf
                  client.bufSize (PUBREC.setWidth 8) 0 id
              else (0, client.receiver.memory)
            let (rc, client) := serializeAndSend client packet writes
            (rc ≠ FAILURE, rc, client)
          else (true, SUCCESS, client)

/-- The answer to `PUBREC` or `PUBREL`. -/
def cycleRelease (client : Client) (packetType : BitVec 16)
    (writes : List Int) : Option (Bool × Int × Client) :=
  match mqttDeserializeAck client.receiver.memory client.receiver.readbuf with
  | (rc, _, acked) =>
      if rc ≠ 1 then some (false, FAILURE, client)
      else
        acked.map fun acked =>
          let packettype :=
            if packetType = PUBREC.setWidth 16 then PUBREL.setWidth 8
            else PUBCOMP.setWidth 8
          let (rc, client) := serializeAndSend client
            (mqttSerializeAck client.receiver.memory client.buf client.bufSize
              packettype 0 acked.packetid) writes
          if rc ≠ SUCCESS then (false, FAILURE, client) else (true, rc, client)

/-- What is done with a packet: whether `keepalive` is reached, the result and
the client. -/
def cycleReact (client : Client) (packetType : BitVec 16) (writes : List Int) :
    Option (Bool × Int × Client) :=
  if packetType = PUBLISH.setWidth 16 then cyclePublish client writes
  else if packetType = PUBREC.setWidth 16 ∨
      packetType = PUBREL.setWidth 16 then
    cycleRelease client packetType writes
  else if packetType = PINGRESP.setWidth 16 then
    some (true, SUCCESS, { client with pingOutstanding := false })
  else some (true, SUCCESS, client)

def cycle (client : Client) (around : Surroundings) : Option (Int × Client) :=
  let (rc, receiver) := readPacket client.receiver around.arrivals
  let packetType := BitVec.ofInt 16 rc
  (cycleReact { client with receiver := receiver } packetType around.writes).map
    fun (alive, rc, client) =>
      let client := if alive then keepalive client around else client
      (if rc = SUCCESS then packetType.toNat else rc, client)

end XR872.Mqtt
