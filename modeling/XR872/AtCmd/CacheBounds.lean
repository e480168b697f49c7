/-
The stores of `at_parse` into its line cache.

Three of the four appends look at the room first. The one for CR does not, and
neither does the NUL that the echo puts behind the line. Every turn of the loop
is listed with the indices it stores to; they stay below `CMD_CACHE_MAX_LEN`
exactly as long as no CR meets a full cache and no echoed line ends at its last
place, whatever the callback delivers.
-/

import XR872.AtCmd.Parse

namespace XR872.AtCmd

open BitView
open Buffers
open Rings
open Runs

variable {n : Nat}

/-! ### Indices of the stores -/

def respondStores (parser : AtParser n) (localecho1 : Bool) : List Nat :=
  if parser.flag ∧ localecho1 then [parser.cache.length] else []

def appendStores (parser : AtParser n) (tmp : Byte) (localecho1 : Bool) :
    List Nat :=
  if parser.cache.length < CMD_CACHE_MAX_LEN then
    parser.cache.length ::
      respondStores { parser with cache := parser.cache ++ [tmp] } localecho1
  else []

def endStores (parser : AtParser n) (tmp : Byte) (localecho1 : Bool) :
    List Nat :=
  if parser.cache.length < CMD_CACHE_MAX_LEN then
    parser.cache.length ::
      appendStores { parser with cache := parser.cache ++ [tmp], flag := true }
        tmp localecho1
  else []

def crStores (parser : AtParser n) (tmp : Byte) (localecho1 : Bool) :
    List Nat :=
  parser.cache.length ::
    if CMD_CACHE_MAX_LEN ≤ parser.cache.length then []
    else
      let stored := { parser with cache := parser.cache ++ [tmp] }
      match atQueuePeek stored.queue with
      | none => []
      | some (.empty, queue) =>
          appendStores { stored with queue, flag := true } tmp localecho1
      | some (.ok following, queue) =>
          if following = AT_LF then
            match atQueuePeek queue with
            | none => []
            | some (.empty, queue) =>
                endStores { stored with queue } following localecho1
            | some (.ok again, queue) =>
                endStores { stored with queue } again localecho1
          else
            appendStores { stored with queue, flag := true } following
              localecho1

def byteStores (parser : AtParser n) (tmp : Byte) (localecho1 : Bool) :
    List Nat :=
  if tmp = AT_LF then endStores parser tmp localecho1
  else if tmp = AT_CR then crStores parser tmp localecho1
  else appendStores parser tmp localecho1

/-- Where one turn of the loop stores into `cache.buf`, in order. -/
def turnStores (parser : AtParser n) (localecho1 : Bool) : List Nat :=
  if parser.outside then []
  else
    match atQueueGet parser.queue with
    | none => []
    | some (.empty, queue) => respondStores { parser with queue } localecho1
    | some (.ok tmp, queue) => byteStores { parser with queue } tmp localecho1

/-- `cache.cnt` is within the cache, and so is every store of the turn. -/
def InCache (parser : AtParser n) (localecho1 : Bool) : Prop :=
  parser.cache.length ≤ CMD_CACHE_MAX_LEN ∧
    ∀ index ∈ turnStores parser localecho1, index < CMD_CACHE_MAX_LEN

instance (parser : AtParser n) (localecho1 : Bool) :
    Decidable (InCache parser localecho1) :=
  inferInstanceAs (Decidable (_ ∧ _))

/-! ### The condition -/

def lineEndCount (parser : AtParser n) (tmp : Byte) : Nat :=
  if tmp = AT_CR ∧ PeeksLf parser.queue then 3 else 2

/-- No CR into a full cache, and no echoed line that fills it to the last
place. -/
def RoomByte (parser : AtParser n) (tmp : Byte) (localecho1 : Bool) : Prop :=
  (tmp = AT_CR → parser.cache.length ≠ CMD_CACHE_MAX_LEN) ∧
    (tmp = AT_CR ∨ tmp = AT_LF → localecho1 = true →
      parser.cache.length + lineEndCount parser tmp ≠ CMD_CACHE_MAX_LEN)

instance (parser : AtParser n) (tmp : Byte) (localecho1 : Bool) :
    Decidable (RoomByte parser tmp localecho1) :=
  inferInstanceAs (Decidable ((_ → _) ∧ (_ → _ → _)))

def RoomAnswer (parser : AtParser n) (localecho1 : Bool) :
    Option (QueueAnswer × AtQueue n) → Prop
  | some (.ok tmp, queue) => RoomByte { parser with queue } tmp localecho1
  | _ => True

/-- The condition on one turn, before it is taken. -/
def RoomTurn (parser : AtParser n) (localecho1 : Bool) : Prop :=
  RoomAnswer parser localecho1 (atQueueGet parser.queue)

/-! ### The queue stays in its ring -/

structure Parsing (parser : AtParser n) : Prop where
  inside : parser.outside = false
  ring : Rings.Inside parser.queue.ring
  count : parser.cache.length ≤ CMD_CACHE_MAX_LEN

structure Resting (parser : AtParser n) : Prop extends Parsing parser where
  emptied : parser.flag = true → parser.cache = []

theorem atQueueStore_inside (queue : AtQueue n) (winbuf : List Byte)
    (inside : Rings.Inside queue.ring) :
    ∃ goesOn next, atQueueStore queue winbuf = some (goesOn, next) ∧
      Rings.Inside next.ring := by
  unfold atQueueStore
  dsimp only
  by_cases arrived : 0 < (winbuf.length : Int)
  · rw [if_pos arrived]
    by_cases overflow : (n : Int) - queue.qcnt < winbuf.length
    · rw [if_pos overflow]
      exact ⟨true, queue, rfl, inside⟩
    · obtain ⟨ring, pushed, kept⟩ := pushAll_inside queue.ring winbuf inside
      rw [if_neg overflow, pushed]
      exact ⟨true, _, rfl, kept⟩
  · rw [if_neg arrived]
    exact ⟨false, queue, rfl, inside⟩

theorem atQueueFill_inside (queue : AtQueue n) (inside : Rings.Inside queue.ring) :
    ∃ goesOn next, atQueueFill queue = some (goesOn, next) ∧
      Rings.Inside next.ring := by
  unfold atQueueFill
  by_cases drained : queue.qcnt ≤ 0
  · rw [if_pos drained]
    cases queue.callback with
    | none => exact ⟨false, queue, rfl, inside⟩
    | some supply =>
        cases supply with
        | nil => exact ⟨false, queue, rfl, inside⟩
        | cons delivery rest => exact atQueueStore_inside _ _ inside
  · rw [if_neg drained]
    exact ⟨true, queue, rfl, inside⟩

theorem atQueueGet_inside (queue : AtQueue n) (inside : Rings.Inside queue.ring) :
    ∃ answer next, atQueueGet queue = some (answer, next) ∧
      Rings.Inside next.ring := by
  obtain ⟨goesOn, filled, fill, kept⟩ := atQueueFill_inside queue inside
  unfold atQueueGet
  rw [fill]
  cases goesOn with
  | false => exact ⟨.empty, filled, rfl, kept⟩
  | true =>
      obtain ⟨first, front⟩ := front_inside filled.ring kept
      refine ⟨.ok first,
        { filled with ring := filled.ring.advance, qcnt := filled.qcnt - 1 },
        ?_, advance_inside filled.ring kept⟩
      dsimp only
      rw [front]
      rfl

theorem atQueuePeek_inside (queue : AtQueue n) (inside : Rings.Inside queue.ring) :
    ∃ answer next, atQueuePeek queue = some (answer, next) ∧
      Rings.Inside next.ring := by
  obtain ⟨goesOn, filled, fill, kept⟩ := atQueueFill_inside queue inside
  unfold atQueuePeek
  rw [fill]
  cases goesOn with
  | false => exact ⟨.empty, filled, rfl, kept⟩
  | true =>
      obtain ⟨first, front⟩ := front_inside filled.ring kept
      refine ⟨.ok first, filled, ?_, kept⟩
      dsimp only
      rw [front]
      rfl

/-! ### One store after the other -/

/-- What a part of the turn stores is inside the cache exactly if there is the
room it needs, and the parser stays in the model exactly then. -/
structure Bounded (stores : List Nat) (result : AtParser n) (room : Prop) :
    Prop where
  below : (∀ index ∈ stores, index < CMD_CACHE_MAX_LEN) ↔ room
  rests : room → Resting result
  leaves : ¬ room → result.outside = true

theorem Bounded.congr {stores : List Nat} {result : AtParser n}
    {room same : Prop} (bounded : Bounded stores result room)
    (equal : room ↔ same) : Bounded stores result same := by
  exact {
    below := bounded.below.trans equal
    rests := fun free => bounded.rests (equal.mpr free)
    leaves := fun full => bounded.leaves fun free => full (equal.mp free) }

theorem Bounded.cons {stores : List Nat} {result : AtParser n} {room : Prop}
    (index : Nat) (free : index < CMD_CACHE_MAX_LEN)
    (bounded : Bounded stores result room) :
    Bounded (index :: stores) result room := by
  exact {
    below := by
      rw [List.forall_mem_cons, ← bounded.below]
      exact and_iff_right free
    rests := bounded.rests
    leaves := bounded.leaves }

theorem Bounded.nil {result : AtParser n} {room : Prop} (free : room)
    (resting : Resting result) : Bounded [] result room := by
  exact {
    below := iff_of_true (fun _ member => nomatch member) free
    rests := fun _ => resting
    leaves := fun full => absurd free full }

theorem Bounded.beyond (parser : AtParser n) {room : Prop} (index : Nat)
    (past : CMD_CACHE_MAX_LEN ≤ index) (full : ¬ room) :
    Bounded [index] parser.leave room := by
  exact {
    below := by
      rw [List.forall_mem_singleton]
      exact iff_of_false (Nat.not_lt.mpr past) full
    rests := fun free => absurd free full
    leaves := fun _ => rfl }

theorem discard_resting (parser : AtParser n) (parsing : Parsing parser) :
    Resting parser.discard := by
  exact {
    inside := parsing.inside
    ring := parsing.ring
    count := Nat.zero_le _
    emptied := fun _ => rfl }

theorem parsing_append (parser : AtParser n) (tmp : Byte) (flag : Bool)
    (parsing : Parsing parser)
    (free : parser.cache.length < CMD_CACHE_MAX_LEN) :
    Parsing { parser with cache := parser.cache ++ [tmp], flag } := by
  exact {
    inside := parsing.inside
    ring := parsing.ring
    count := by
      rw [List.length_append, List.length_singleton]
      exact free }

theorem parsing_queue (parser : AtParser n) (queue : AtQueue n) (flag : Bool)
    (parsing : Parsing parser) (ring : Rings.Inside queue.ring) :
    Parsing { parser with queue, flag } := by
  exact {
    inside := parsing.inside
    ring := ring
    count := parsing.count }

theorem respond_bounded (parser : AtParser n) (localecho1 : Bool)
    (parsing : Parsing parser) :
    Bounded (respondStores parser localecho1)
      (atParseRespond parser localecho1)
      (parser.flag = true → localecho1 = true →
        parser.cache.length ≠ CMD_CACHE_MAX_LEN) := by
  have count := parsing.count
  have answered : Resting
      { parser with
        calls := parser.calls ++ [parser.cache]
        cache := []
        flag := false } := {
    inside := parsing.inside
    ring := parsing.ring
    count := Nat.zero_le _
    emptied := fun _ => rfl }
  unfold respondStores atParseRespond
  by_cases complete : parser.flag = true
  · rw [if_pos complete]
    by_cases echo : localecho1 = true
    · rw [if_pos ⟨complete, echo⟩]
      by_cases full : CMD_CACHE_MAX_LEN ≤ parser.cache.length
      · rw [if_pos ⟨echo, full⟩]
        exact Bounded.beyond parser _ full
          fun free => free complete echo (Nat.le_antisymm count full)
      · rw [if_neg fun both => full both.2]
        apply Bounded.cons _ (Nat.lt_of_not_le full)
        exact Bounded.nil (fun _ _ => Nat.ne_of_lt (Nat.lt_of_not_le full))
          answered
    · rw [if_neg fun both => echo both.2, if_neg fun both => echo both.1]
      exact Bounded.nil (fun _ set => absurd set echo) answered
  · rw [if_neg complete, if_neg fun both => complete both.1]
    apply Bounded.nil fun set => absurd set complete
    exact {
      toParsing := parsing
      emptied := fun set => absurd set complete }

theorem append_bounded (parser : AtParser n) (tmp : Byte) (localecho1 : Bool)
    (parsing : Parsing parser) :
    Bounded (appendStores parser tmp localecho1)
      (atParseAppend parser tmp localecho1)
      (parser.flag = true → localecho1 = true →
        parser.cache.length + 1 ≠ CMD_CACHE_MAX_LEN) := by
  unfold appendStores atParseAppend
  by_cases free : parser.cache.length < CMD_CACHE_MAX_LEN
  · rw [if_pos free, if_pos free]
    apply Bounded.cons _ free
    apply (respond_bounded _ localecho1
      (parsing_append parser tmp _ parsing free)).congr
    rw [List.length_append, List.length_singleton]
  · rw [if_neg free, if_neg free]
    apply Bounded.nil _ (discard_resting parser parsing)
    intro _ _
    omega

theorem end_bounded (parser : AtParser n) (tmp : Byte) (localecho1 : Bool)
    (parsing : Parsing parser) :
    Bounded (endStores parser tmp localecho1)
      (atParseEnd parser tmp localecho1)
      (localecho1 = true →
        parser.cache.length + 2 ≠ CMD_CACHE_MAX_LEN) := by
  unfold endStores atParseEnd
  by_cases free : parser.cache.length < CMD_CACHE_MAX_LEN
  · rw [if_pos free, if_pos free]
    apply Bounded.cons _ free
    apply (append_bounded _ tmp localecho1
      (parsing_append parser tmp _ parsing free)).congr
    rw [List.length_append, List.length_singleton]
    exact forall_prop_of_true rfl
  · rw [if_neg free, if_neg free]
    apply Bounded.nil _ (discard_resting parser parsing)
    intro _
    omega

/-- The end of a line that begins with a CR which has been stored. -/
theorem crEnd_bounded (parser : AtParser n) (queue : AtQueue n)
    (following : Byte) (localecho1 : Bool) (parsing : Parsing parser)
    (ring : Rings.Inside queue.ring) :
    Bounded
      (appendStores { parser with queue, flag := true } following localecho1)
      (atParseAppend { parser with queue, flag := true } following localecho1)
      (localecho1 = true →
        parser.cache.length + 1 ≠ CMD_CACHE_MAX_LEN) := by
  apply (append_bounded _ following localecho1
    (parsing_queue parser queue true parsing ring)).congr
  exact forall_prop_of_true rfl

theorem cr_bounded (parser : AtParser n) (localecho1 : Bool)
    (parsing : Parsing parser) :
    Bounded (crStores parser AT_CR localecho1)
      (atParseCr parser AT_CR localecho1)
      (RoomByte parser AT_CR localecho1) := by
  have count := parsing.count
  have room : RoomByte parser AT_CR localecho1 ↔
      parser.cache.length ≠ CMD_CACHE_MAX_LEN ∧ (localecho1 = true →
        parser.cache.length + lineEndCount parser AT_CR ≠
          CMD_CACHE_MAX_LEN) := by
    unfold RoomByte
    rw [forall_prop_of_true rfl, forall_prop_of_true (Or.inl rfl)]
  refine Bounded.congr ?_ room.symm
  unfold crStores atParseCr
  by_cases full : CMD_CACHE_MAX_LEN ≤ parser.cache.length
  · rw [if_pos full, if_pos full]
    exact Bounded.beyond parser _ full
      fun free => free.1 (Nat.le_antisymm count full)
  · have free : parser.cache.length < CMD_CACHE_MAX_LEN :=
      Nat.lt_of_not_le full
    have stored := parsing_append parser AT_CR parser.flag parsing free
    have size : (parser.cache ++ [AT_CR]).length = parser.cache.length + 1 := by
      rw [List.length_append, List.length_singleton]
    obtain ⟨answer, peeked, peek, ring⟩ :=
      atQueuePeek_inside parser.queue parsing.ring
    rw [if_neg full, if_neg full]
    apply Bounded.cons _ free
    -- What is seen behind the CR decides how many characters end the line.
    by_cases feed : PeeksLf parser.queue
    · have lf : answer = .ok AT_LF := by
        unfold PeeksLf at feed
        rw [peek] at feed
        exact Option.some.inj feed
      have marks : lineEndCount parser AT_CR = 3 := if_pos ⟨rfl, feed⟩
      have crlf : ∀ (queue : AtQueue n) (again : Byte), Rings.Inside queue.ring →
          Bounded
            (endStores
              { parser with queue, cache := parser.cache ++ [AT_CR] } again
              localecho1)
            (atParseEnd
              { parser with queue, cache := parser.cache ++ [AT_CR] } again
              localecho1)
            (parser.cache.length ≠ CMD_CACHE_MAX_LEN ∧ (localecho1 = true →
              parser.cache.length + lineEndCount parser AT_CR ≠
                CMD_CACHE_MAX_LEN)) := by
        intro queue again inside
        apply (end_bounded _ again localecho1
          (parsing_queue _ queue parser.flag stored inside)).congr
        rw [size, marks]
        exact (and_iff_right (Nat.ne_of_lt free)).symm
      obtain ⟨second, last, peekAgain, inside⟩ :=
        atQueuePeek_inside peeked ring
      dsimp only
      rw [peek, lf]
      dsimp only
      rw [if_pos rfl, if_pos rfl, peekAgain]
      cases second with
      | empty => exact crlf last AT_LF inside
      | ok again => exact crlf last again inside
    · have marks : lineEndCount parser AT_CR = 2 :=
        if_neg fun both => feed both.2
      have ends : ∀ following : Byte,
          Bounded
            (appendStores
              { parser with
                queue := peeked
                cache := parser.cache ++ [AT_CR]
                flag := true } following localecho1)
            (atParseAppend
              { parser with
                queue := peeked
                cache := parser.cache ++ [AT_CR]
                flag := true } following localecho1)
            (parser.cache.length ≠ CMD_CACHE_MAX_LEN ∧ (localecho1 = true →
              parser.cache.length + lineEndCount parser AT_CR ≠
                CMD_CACHE_MAX_LEN)) := by
        intro following
        apply (crEnd_bounded _ peeked following localecho1 stored ring).congr
        rw [size, marks]
        exact (and_iff_right (Nat.ne_of_lt free)).symm
      dsimp only
      rw [peek]
      cases answer with
      | empty => exact ends AT_CR
      | ok following =>
          have other : following ≠ AT_LF := by
            intro same
            apply feed
            unfold PeeksLf
            rw [peek, same]
            rfl
          dsimp only
          rw [if_neg other, if_neg other]
          exact ends following

/-! ### Bytes and turns -/

theorem byte_bounded (parser : AtParser n) (tmp : Byte) (localecho1 : Bool)
    (resting : Resting parser) :
    Bounded (byteStores parser tmp localecho1)
      (atParseByte parser tmp localecho1)
      (RoomByte parser tmp localecho1) := by
  have parsing := resting.toParsing
  unfold byteStores atParseByte
  by_cases feed : tmp = AT_LF
  · subst feed
    have notCr : AT_LF ≠ AT_CR := by decide
    have marks : lineEndCount parser AT_LF = 2 :=
      if_neg fun both => notCr both.1
    rw [if_pos rfl, if_pos rfl]
    apply (end_bounded parser AT_LF localecho1 parsing).congr
    unfold RoomByte
    rw [marks, forall_prop_of_true (Or.inr rfl)]
    exact (and_iff_right fun same => absurd same notCr).symm
  · rw [if_neg feed, if_neg feed]
    by_cases carriage : tmp = AT_CR
    · subst carriage
      rw [if_pos rfl, if_pos rfl]
      exact cr_bounded parser localecho1 parsing
    · rw [if_neg carriage, if_neg carriage]
      apply (append_bounded parser tmp localecho1 parsing).congr
      apply iff_of_true
      · -- A flag left over from a discarded line meets an empty cache.
        intro set _
        rw [resting.emptied set]
        decide
      · refine ⟨fun same => absurd same carriage, ?_⟩
        rintro (same | same)
        · exact absurd same carriage
        · exact absurd same feed

theorem turn_bounded (parser : AtParser n) (localecho1 : Bool)
    (resting : Resting parser) :
    Bounded (turnStores parser localecho1) (atParseTurn parser localecho1)
      (RoomTurn parser localecho1) := by
  have running : ¬ parser.outside = true := by
    rw [resting.inside]
    exact Bool.false_ne_true
  obtain ⟨answer, queue, get, ring⟩ :=
    atQueueGet_inside parser.queue resting.ring
  have taken : Resting { parser with queue } := {
    toParsing := parsing_queue parser queue parser.flag resting.toParsing ring
    emptied := resting.emptied }
  unfold turnStores atParseTurn RoomTurn
  rw [if_neg running, if_neg running, get]
  cases answer with
  | empty =>
      apply (respond_bounded _ localecho1 taken.toParsing).congr
      apply iff_of_true
      · intro set _
        rw [taken.emptied set]
        decide
      · trivial
  | ok tmp => exact byte_bounded _ tmp localecho1 taken

theorem resting_start (cells : Buffer Byte n) (supply : List Delivery)
    (queue : AtQueue n)
    (init : atQueueInit (some cells) (some supply) = some queue)
    (room : 0 < n) : Resting (atParseStart queue) := by
  cases init
  exact {
    inside := rfl
    ring := inside_start cells room
    count := Nat.zero_le _
    emptied := fun _ => rfl }

theorem atQueueGet_noCells (queue : AtQueue 0) (element : Byte)
    (next : AtQueue 0) : atQueueGet queue ≠ some (.ok element, next) := by
  have noFront : ∀ filled : AtQueue 0, filled.ring.front = none := by
    intro filled
    apply List.getElem?_eq_none
    rw [filled.ring.cells.size]
    exact Nat.zero_le _
  unfold atQueueGet
  cases atQueueFill queue with
  | none => nofun
  | some filled =>
      obtain ⟨goesOn, filled⟩ := filled
      cases goesOn with
      | false => nofun
      | true =>
          dsimp only
          rw [noFront filled]
          nofun

theorem noCells_turn (parser : AtParser 0) (localecho1 : Bool)
    (empty : parser.cache = []) (idle : parser.flag = false) :
    InCache parser localecho1 ∧ RoomTurn parser localecho1 ∧
      (atParseTurn parser localecho1).cache = [] ∧
      (atParseTurn parser localecho1).flag = false := by
  have unset : ¬ parser.flag = true := by
    rw [idle]
    exact Bool.false_ne_true
  have count : parser.cache.length ≤ CMD_CACHE_MAX_LEN := by
    rw [empty]
    exact Nat.zero_le _
  have noByte := atQueueGet_noCells parser.queue
  unfold InCache turnStores RoomTurn atParseTurn
  cases get : atQueueGet parser.queue with
  | none =>
      refine ⟨⟨count, ?_⟩, trivial, ?_, ?_⟩
      · intro index member
        split at member
        · cases member
        · cases member
      · split
        · exact empty
        · exact empty
      · split
        · exact idle
        · exact idle
  | some answer =>
      obtain ⟨answer, queue⟩ := answer
      cases answer with
      | ok element => exact absurd get (noByte element queue)
      | empty =>
          have resting : atParseRespond { parser with queue } localecho1 =
              { parser with queue } := if_neg unset
          have noStores : respondStores { parser with queue } localecho1 = [] :=
            if_neg fun both => unset both.1
          dsimp only
          rw [resting, noStores]
          refine ⟨⟨count, ?_⟩, trivial, ?_, ?_⟩
          · intro index member
            split at member
            · cases member
            · cases member
          · split
            · exact empty
            · exact empty
          · split
            · exact idle
            · exact idle

/-- Over any deliveries and any switching of the echo, all stores of the parser
are inside its cache exactly if every turn finds the room it needs. -/
theorem inCache_along (cells : Buffer Byte n) (supply : List Delivery)
    (queue : AtQueue n)
    (init : atQueueInit (some cells) (some supply) = some queue)
    (echoes : List Bool) :
    Along atParseTurn InCache (atParseStart queue) echoes ↔
      Along atParseTurn RoomTurn (atParseStart queue) echoes := by
  cases n with
  | zero =>
      apply along_iff_along InCache RoomTurn
        (fun parser => parser.cache = [] ∧ parser.flag = false)
      · intro parser localecho1 quiet
        exact (noCells_turn parser localecho1 quiet.1 quiet.2).2.2
      · intro parser localecho1 quiet
        obtain ⟨bounded, free, _⟩ :=
          noCells_turn parser localecho1 quiet.1 quiet.2
        exact iff_of_true bounded free
      · exact ⟨rfl, rfl⟩
  | succ size =>
      apply along_iff_along_of_kept InCache RoomTurn Resting
      · intro parser localecho1 resting free
        exact (turn_bounded parser localecho1 resting).rests free
      · intro parser localecho1 resting
        unfold InCache
        rw [(turn_bounded parser localecho1 resting).below,
          and_iff_right resting.count]
      · exact resting_start cells supply queue init (Nat.succ_pos size)

theorem fullBlock_winbuf : (List.replicate 32 0x41#8).length ≤ 32 :=
  Nat.le_of_eq List.length_replicate

def fullSupply : List Delivery :=
  List.replicate 32
      { bytes := List.replicate 32 0x41#8, winbuf := fullBlock_winbuf } ++
    [{ bytes := [AT_CR], winbuf := by decide }]

/-- The parser of these deliveries, over a ring of 32 bytes. -/
def fullStart : AtParser 32 :=
  atParseStart
    { ring := Ring.start (Buffer.fill 32 0), qcnt := 0,
      callback := some fullSupply }

/-- The CR is stored behind the cache. -/
theorem crBehindFullCache :
    (run atParseTurn fullStart (List.replicate 1024 false)).cache.length =
        CMD_CACHE_MAX_LEN ∧
      turnStores (run atParseTurn fullStart (List.replicate 1024 false))
        false = [CMD_CACHE_MAX_LEN] ∧
      ¬ Along atParseTurn InCache fullStart
        (List.replicate 1024 false ++ [false]) := by
  have stores :
      turnStores (run atParseTurn fullStart (List.replicate 1024 false))
        false = [CMD_CACHE_MAX_LEN] := by
    decide +kernel
  refine ⟨by decide +kernel, stores, ?_⟩
  intro along
  rw [along_append] at along
  have below := along.2.1.2
  rw [stores] at below
  exact Nat.lt_irrefl _ (below _ (List.mem_singleton_self _))

/-- An echoed "AT" with its CRLF in one delivery. -/
theorem inCache_along_echoed :
    Along atParseTurn InCache
        (atParseStart
          { ring := Ring.start (Buffer.fill 4 0), qcnt := 0,
            callback := some
              [{ bytes := [0x41#8, 0x54#8, AT_CR, AT_LF],
                 winbuf := by decide }] })
        [true, true, true, true] ↔
      Along atParseTurn RoomTurn
        (atParseStart
          { ring := Ring.start (Buffer.fill 4 0), qcnt := 0,
            callback := some
              [{ bytes := [0x41#8, 0x54#8, AT_CR, AT_LF],
                 winbuf := by decide }] })
        [true, true, true, true] :=
  inCache_along (Buffer.fill 4 0)
    [{ bytes := [0x41#8, 0x54#8, AT_CR, AT_LF], winbuf := by decide }] _ rfl
    [true, true, true, true]

end XR872.AtCmd
