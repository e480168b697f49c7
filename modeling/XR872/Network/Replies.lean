/-
Which replies are counted.

A turn is sound, in what it reads, computes and takes for a reply, exactly under
a condition on what arrives in it and when. The wait goes from turn to turn by
the same test of the id and the sequence number.
-/

import XR872.Network.Ping

namespace XR872.Network

open BitView
open Memories

variable (call : PingCall)

/-! ### Real replies -/

def Turn.source (turn : Turn) : Option (BitVec 32) :=
  match turn.arrival with
  | .datagram source _ => some source
  | _ => none

def headerPlace (got : List Byte) : Nat := icmpPlace (got.headD 0)

def IdAt (got : List Byte) (ids : BitVec 16) : Prop :=
  got[headerPlace got + 4]? = some (lowByte ids) ∧
    got[headerPlace got + 5]? = some (highByte ids)

instance (got : List Byte) (ids : BitVec 16) : Decidable (IdAt got ids) :=
  inferInstanceAs (Decidable (_ ∧ _))

def SeqAt (got : List Byte) (seq : BitVec 16) : Prop :=
  got[headerPlace got + 6]? = some (highByte seq) ∧
    got[headerPlace got + 7]? = some (lowByte seq)

instance (got : List Byte) (seq : BitVec 16) : Decidable (SeqAt got seq) :=
  inferInstanceAs (Decidable (_ ∧ _))

def EchoReply (got : List Byte) (ids seq : BitVec 16) : Prop :=
  20 ≤ headerPlace got ∧ got[headerPlace got]? = some ICMP_ER ∧
    IdAt got ids ∧ SeqAt got seq

instance (got : List Byte) (ids seq : BitVec 16) :
    Decidable (EchoReply got ids seq) :=
  inferInstanceAs (Decidable (_ ∧ _ ∧ _ ∧ _))

def IsReply (index : Nat) (turn : Turn) : Prop :=
  turn.source = some call.sinAddr ∧
    EchoReply (call.received turn) call.ids (seqNum index) ∧
    turn.recvTicks - (call.exchanges index).timeStart < PING_TO

instance (index : Nat) (turn : Turn) : Decidable (IsReply call index turn) :=
  inferInstanceAs (Decidable (_ ∧ _ ∧ _))

/-- What is taken for a reply is one, what is read was received, and the
computed times are exact. -/
structure Sound (seen : Observation) : Prop where
  real : seen.taken = true → IsReply call seen.request seen.turn
  inside : ∀ place ∈ seen.reads,
    place < (call.received seen.turn).length ∧ place < call.bufSize.toNat
  exact_ : ∀ time ∈ seen.times,
    time.2 = time.1 - (call.exchanges seen.request).timeStart

def answered (seen : List Observation) : Nat :=
  (List.range call.count.toNat).countP fun index =>
    seen.any fun one =>
      decide (one.request = index ∧ IsReply call index one.turn)

def PingPromise (lwipChksum : List Byte → BitVec 16) : Prop :=
  ∃ pinged, ping call lwipChksum = some pinged ∧
    pinged.value =
      (if answered call pinged.seen = 0 then -1
        else (answered call pinged.seen : Int)) ∧
    (∀ seen ∈ pinged.seen, Sound call seen) ∧
    (pinged.opened = true → pinged.closed = true)

/-! ### The condition -/

def Large (turn : Turn) : Prop := 28 ≤ (call.received turn).length

def Passes (index : Nat) (turn : Turn) : Prop :=
  Large call turn ∧ IdAt (call.received turn) call.ids ∧
    SeqAt (call.received turn) (seqNum index)

instance (index : Nat) (turn : Turn) : Decidable (Passes call index turn) :=
  inferInstanceAs (Decidable (_ ≤ _ ∧ _ ∧ _))

structure TurnClean (index : Nat) (turn : Turn) : Prop where
  heard : turn.arrival ≠ .failed
  header : Large call turn →
    headerPlace (call.received turn) + 6 ≤ (call.received turn).length ∧
      (IdAt (call.received turn) call.ids →
        headerPlace (call.received turn) + 8 ≤ (call.received turn).length)
  real : Passes call index turn → IsReply call index turn
  recvTicks : Large call turn →
    (call.exchanges index).timeStart ≤ turn.recvTicks
  endTicks : ¬ Passes call index turn →
    (call.exchanges index).timeStart ≤ turn.endTicks

def TurnsClean (index : Nat) : List Turn → Prop
  | [] => (call.exchanges index).timeStart ≤ (call.exchanges index).gaveUp
  | turn :: later =>
      TurnClean call index turn ∧
        (¬ (Passes call index turn ∨ GivesUp (call.exchanges index) turn) →
          TurnsClean index later)

def Replied (index : Nat) : List Turn → Bool
  | [] => false
  | turn :: later =>
      decide (Passes call index turn) ||
        !decide (GivesUp (call.exchanges index) turn) && Replied index later

/-- Either there is no socket, or: the buffer is allocated and holds the
request, every wait is clean, and the replies can be counted. -/
def PingClean : Prop :=
  call.opens = false ∨
    call.allocates = true ∧
      (call.count = 0 ∨ call.dataLong.toNat + 48 < 2 ^ 32) ∧
      (∀ index, index < call.count.toNat →
        TurnsClean call index (call.exchanges index).turns) ∧
      (List.range call.count.toNat).countP (fun index =>
        Replied call index (call.exchanges index).turns) < 2 ^ 31

/-! ### Fields -/

theorem append_eq_iff (high low high' low' : Byte) :
    high ++ low = high' ++ low' ↔ high = high' ∧ low = low' := by
  constructor
  · intro same
    constructor
    · have upper := congrArg (BitVec.extractLsb' 8 8) same
      rwa [BitVec.extractLsb'_append_eq_left,
        BitVec.extractLsb'_append_eq_left] at upper
    · have lower := congrArg (BitVec.extractLsb' 0 8) same
      rwa [BitVec.extractLsb'_append_eq_right,
        BitVec.extractLsb'_append_eq_right] at lower
  · rintro ⟨rfl, rfl⟩
    rfl

theorem highByte_append_lowByte (value : BitVec 16) :
    highByte value ++ lowByte value = value := by
  apply BitVec.eq_of_getLsbD_eq
  intro index below
  rw [BitVec.getLsbD_append]
  unfold highByte lowByte
  by_cases low : index < 8
  · simp [low]
  · simp [low, show index - 8 < 8 by omega, show 8 + (index - 8) = index by omega]

theorem timeElapse_exact (timeStart timeNow : BitVec 32) :
    timeElapse timeStart timeNow = timeNow - timeStart ↔
      timeStart ≤ timeNow := by
  unfold timeElapse
  by_cases later : timeStart ≤ timeNow
  · rw [if_pos later]
    exact iff_of_true rfl later
  · rw [if_neg later]
    apply iff_of_false _ later
    bv_omega

section Stored

variable (memory : Nat → Byte) (got : List Byte)

theorem stored_at (index : Nat) (value : Byte) (inside : index < got.length) :
    store memory 0 got index = value ↔ got[index]? = some value := by
  have here := store_inside memory 0 got index
  rw [Nat.zero_add, List.getD_eq_getElem _ _ inside] at here
  rw [here, List.getElem?_eq_getElem inside, Option.some.injEq]

theorem stored_head (some_ : 0 < got.length) :
    store memory 0 got 0 = got.headD 0 := by
  rw [stored_at memory got 0 _ some_]
  cases got with
  | nil => exact absurd some_ (Nat.lt_irrefl _)
  | cons first rest => rfl

theorem field_stored (place : Nat) (value : BitVec 16)
    (inside : place + 2 ≤ got.length) :
    fieldAt (store memory 0 got) place = value ↔
      got[place]? = some (lowByte value) ∧
        got[place + 1]? = some (highByte value) := by
  unfold fieldAt
  rw [← stored_at memory got place _ (by omega),
    ← stored_at memory got (place + 1) _ (by omega)]
  conv_lhs => rw [← highByte_append_lowByte value]
  rw [append_eq_iff, and_comm]

end Stored

/-! ### One turn -/

theorem length_received_le (turn : Turn) :
    (call.received turn).length ≤ call.bufSize.toNat := by
  unfold PingCall.received
  cases turn.arrival with
  | nothing => exact Nat.zero_le _
  | failed => exact Nat.zero_le _
  | datagram source bytes =>
      rw [List.length_take]
      exact Nat.min_le_left _ _

theorem considers_iff_large (turn : Turn) (heard : turn.arrival ≠ .failed) :
    call.Considers turn ↔ Large call turn := by
  have bound := length_received_le call turn
  have small := call.bufSize.isLt
  unfold PingCall.Considers Large
  cases arrival : turn.arrival with
  | nothing =>
      have empty : call.received turn = [] := by
        unfold PingCall.received
        rw [arrival]
      rw [empty]
      simp
  | failed => exact absurd arrival heard
  | datagram source bytes =>
      have size : call.replySize turn =
          BitVec.ofNat 32 (call.received turn).length := by
        unfold PingCall.replySize
        rw [arrival]
      rw [size]
      constructor
      · rintro ⟨_, enough⟩
        have sizes : (28 : Nat) ≤
            (BitVec.ofNat 32 (call.received turn).length).toNat := enough
        rw [BitVec.toNat_ofNat] at sizes
        omega
      · intro large
        refine ⟨nofun, ?_⟩
        change (28 : Nat) ≤
          (BitVec.ofNat 32 (call.received turn).length).toNat
        rw [BitVec.toNat_ofNat]
        omega

variable (index : Nat) (memory : Nat → Byte) (turn : Turn)

@[simp] theorem waitTurn_request :
    (waitTurn call index memory turn).1.request = index := by
  unfold waitTurn
  dsimp only
  split
  · rfl
  · rfl

@[simp] theorem waitTurn_turn :
    (waitTurn call index memory turn).1.turn = turn := by
  unfold waitTurn
  dsimp only
  split
  · rfl
  · rfl

theorem waitTurn_failed (failed : turn.arrival = .failed) :
    ¬ Sound call (waitTurn call index memory turn).1 := by
  have considered : call.Considers turn := by
    refine ⟨by rw [failed]; exact nofun, ?_⟩
    unfold PingCall.replySize
    rw [failed]
    change ipHdrSize + icmpEchoHdrSize ≤ 0xffffffff
    decide
  intro sound
  have inside := sound.inside 0 (by
    unfold waitTurn
    dsimp only
    rw [if_pos considered]
    exact List.mem_cons_self)
  rw [waitTurn_turn] at inside
  unfold PingCall.received at inside
  rw [failed] at inside
  exact Nat.not_lt_zero _ inside.1

theorem waitTurn_small (heard : turn.arrival ≠ .failed)
    (small : ¬ Large call turn) :
    (Sound call (waitTurn call index memory turn).1 ↔
        TurnClean call index turn) ∧
      (waitTurn call index memory turn).1.taken = false := by
  have ignored : ¬ call.Considers turn :=
    (considers_iff_large call turn heard).not.mpr small
  have seen : (waitTurn call index memory turn).1 =
      { request := index
        turn := turn
        reads := []
        times := [elapsedAt (call.exchanges index) turn.endTicks]
        taken := false } := by
    unfold waitTurn
    dsimp only
    rw [if_neg ignored]
  rw [seen]
  refine ⟨?_, rfl⟩
  constructor
  · intro sound
    have exact_ := sound.exact_ _ List.mem_cons_self
    exact
      { heard := heard
        header := fun large => absurd large small
        real := fun passes => absurd passes.1 small
        recvTicks := fun large => absurd large small
        endTicks := fun _ => (timeElapse_exact _ _).mp exact_ }
  · intro clean
    refine { real := nofun, inside := nofun, exact_ := ?_ }
    intro time member
    rw [List.mem_singleton.mp member]
    exact (timeElapse_exact _ _).mpr
      (clean.endTicks fun passes => small passes.1)

/-- What is observed of a turn with a long enough datagram, given whether the id
is right and whether the sequence number is right as well. -/
def considered (idRight taken : Bool) : Observation :=
  { request := index
    turn := turn
    reads := [0, headerPlace (call.received turn) + 4,
      headerPlace (call.received turn) + 5] ++
        (if idRight then [headerPlace (call.received turn) + 6,
          headerPlace (call.received turn) + 7] else [])
    times := elapsedAt (call.exchanges index) turn.recvTicks ::
      (if taken then []
        else [elapsedAt (call.exchanges index) turn.endTicks])
    taken := taken }

structure Tested (idRight taken : Bool) : Prop where
  id : headerPlace (call.received turn) + 6 ≤ (call.received turn).length →
    (idRight = true ↔ IdAt (call.received turn) call.ids)
  both : taken = true → idRight = true
  seq : idRight = true →
    headerPlace (call.received turn) + 8 ≤ (call.received turn).length →
      (taken = true ↔ SeqAt (call.received turn) (seqNum index))

theorem waitTurn_large (large : Large call turn)
    (heard : turn.arrival ≠ .failed) :
    ∃ idRight taken,
      (waitTurn call index memory turn).1 =
          considered call index turn idRight taken ∧
        Tested call index turn idRight taken := by
  have isLarge := (considers_iff_large call turn heard).mpr large
  have place : icmpPlace (store memory 0 (call.received turn) 0) =
      headerPlace (call.received turn) := by
    have some_ : 0 < (call.received turn).length := by
      unfold Large at large
      omega
    rw [stored_head memory _ some_]
    rfl
  refine ⟨decide (fieldAt (store memory 0 (call.received turn))
      (headerPlace (call.received turn) + 4) = call.ids),
    decide (fieldAt (store memory 0 (call.received turn))
        (headerPlace (call.received turn) + 4) = call.ids ∧
      fieldAt (store memory 0 (call.received turn))
        (headerPlace (call.received turn) + 6) = htons (seqNum index)),
    ?_, { id := ?_, both := ?_, seq := ?_ }⟩
  · unfold waitTurn considered
    dsimp only
    rw [if_pos isLarge, place]
    simp only [decide_eq_true_eq]
  · intro within
    rw [decide_eq_true_iff]
    exact field_stored memory _ _ _ (by omega)
  · intro both
    exact decide_eq_true (of_decide_eq_true both).1
  · intro idRight within
    rw [decide_eq_true_iff, and_iff_right (of_decide_eq_true idRight),
      field_stored memory _ _ _ (by omega)]
    have swapped : lowByte (htons (seqNum index)) = highByte (seqNum index) ∧
        highByte (htons (seqNum index)) = lowByte (seqNum index) := by
      have whole := highByte_append_lowByte (htons (seqNum index))
      obtain ⟨high, low⟩ := (append_eq_iff _ _ _ _).mp whole
      exact ⟨low, high⟩
    rw [swapped.1, swapped.2]
    exact Iff.rfl

section LargeTurns

variable {call index turn} {idRight taken : Bool}

/-- Inside what was received, the tests are the conditions on its fields. -/
theorem Tested.passes (tested : Tested call index turn idRight taken)
    (large : Large call turn)
    (idHeader : headerPlace (call.received turn) + 6 ≤
      (call.received turn).length)
    (seqHeader : idRight = true →
      headerPlace (call.received turn) + 8 ≤ (call.received turn).length) :
    taken = true ↔ Passes call index turn := by
  constructor
  · intro took
    have right := tested.both took
    exact ⟨large, (tested.id idHeader).mp right,
      (tested.seq right (seqHeader right)).mp took⟩
  · rintro ⟨_, id, seq⟩
    have right := (tested.id idHeader).mpr id
    exact (tested.seq right (seqHeader right)).mpr seq

theorem Sound.header
    (sound : Sound call (considered call index turn idRight taken)) :
    headerPlace (call.received turn) + 6 ≤ (call.received turn).length ∧
      (idRight = true →
        headerPlace (call.received turn) + 8 ≤
          (call.received turn).length) := by
  have inside := sound.inside
  constructor
  · exact (inside _ (List.mem_append_left _
      (List.mem_cons_of_mem _ (List.mem_cons_of_mem _
        List.mem_cons_self)))).1
  · intro right
    unfold considered at inside
    rw [if_pos right] at inside
    exact (inside _ (List.mem_append_right _
      (List.mem_cons_of_mem _ List.mem_cons_self))).1

theorem Sound.turnClean
    (sound : Sound call (considered call index turn idRight taken))
    (tested : Tested call index turn idRight taken) (large : Large call turn)
    (heard : turn.arrival ≠ .failed) : TurnClean call index turn := by
  obtain ⟨first, second⟩ := sound.header
  have passes := tested.passes large first second
  exact
    { heard := heard
      header := fun _ => ⟨first, fun id => second ((tested.id first).mpr id)⟩
      real := fun passing => sound.real (passes.mpr passing)
      recvTicks := fun _ => (timeElapse_exact _ _).mp
        (sound.exact_ _ List.mem_cons_self)
      endTicks := fun failing => by
        have untaken : taken = false :=
          Bool.eq_false_iff.mpr fun took => failing (passes.mp took)
        apply (timeElapse_exact _ _).mp
        have behind : elapsedAt (call.exchanges index) turn.endTicks ∈
            (if taken = true then []
              else [elapsedAt (call.exchanges index) turn.endTicks]) := by
          rw [untaken]
          exact List.mem_cons_self
        exact sound.exact_ _ (List.mem_cons_of_mem _ behind) }

theorem TurnClean.sound (clean : TurnClean call index turn)
    (tested : Tested call index turn idRight taken)
    (large : Large call turn) :
    Sound call (considered call index turn idRight taken) := by
  have fits := length_received_le call turn
  obtain ⟨first, inId⟩ := clean.header large
  have second (right : idRight = true) := inId ((tested.id first).mp right)
  have passes := tested.passes large first second
  refine
    { real := fun took => clean.real (passes.mp took)
      inside := ?_
      exact_ := ?_ }
  · intro place member
    have within : place < (call.received turn).length := by
      unfold Large at large
      rcases List.mem_append.mp member with front | back
      · simp only [List.mem_cons, List.not_mem_nil, or_false] at front
        omega
      · by_cases right : idRight = true
        · have whole := second right
          rw [if_pos right] at back
          simp only [List.mem_cons, List.not_mem_nil, or_false] at back
          omega
        · rw [if_neg right] at back
          cases back
    exact ⟨within, within.trans_le fits⟩
  · intro time member
    rcases List.mem_cons.mp member with same | later
    · rw [same]
      exact (timeElapse_exact _ _).mpr (clean.recvTicks large)
    · by_cases took : taken = true
      · rw [if_pos took] at later
        cases later
      · rw [if_neg took, List.mem_singleton] at later
        rw [later]
        apply (timeElapse_exact _ _).mpr
        exact clean.endTicks fun passing => took (passes.mpr passing)

end LargeTurns

theorem waitTurn_sound :
    (Sound call (waitTurn call index memory turn).1 ↔
        TurnClean call index turn) ∧
      (Sound call (waitTurn call index memory turn).1 →
        ((waitTurn call index memory turn).1.taken = true ↔
          Passes call index turn)) := by
  by_cases heard : turn.arrival = .failed
  · have unsound := waitTurn_failed call index memory turn heard
    exact ⟨iff_of_false unsound fun clean => clean.heard heard,
      fun sound => absurd sound unsound⟩
  · by_cases large : Large call turn
    · obtain ⟨idRight, taken, seen, tested⟩ :=
        waitTurn_large call index memory turn large heard
      rw [seen]
      constructor
      · constructor
        · intro sound
          exact sound.turnClean tested large heard
        · intro clean
          exact clean.sound tested large
      · intro sound
        exact tested.passes large sound.header.1 sound.header.2
    · obtain ⟨same, untaken⟩ := waitTurn_small call index memory turn heard large
      refine ⟨same, fun _ => ?_⟩
      rw [untaken]
      exact iff_of_false Bool.false_ne_true fun passes => large passes.1

/-! ### One wait -/

theorem waitReply_turn (turns : List Turn) :
    ∀ seen ∈ (waitReply call index turns memory).1,
      ∃ before turn, seen = (waitTurn call index before turn).1 := by
  induction turns generalizing memory with
  | nil =>
      intro seen member
      unfold waitReply at member
      exact ⟨_, _, List.mem_singleton.mp member⟩
  | cons turn later ih =>
      intro seen member
      unfold waitReply at member
      dsimp only at member
      split at member
      · exact ⟨_, _, List.mem_singleton.mp member⟩
      · rcases List.mem_cons.mp member with first | behind
        · exact ⟨_, _, first⟩
        · exact ih _ seen behind

/-- The induction is on the turns that are left; the turn behind them is a turn
in which nothing arrives. -/
theorem waitReply_sound (turns : List Turn) :
    ((∀ seen ∈ (waitReply call index turns memory).1, Sound call seen) ↔
        TurnsClean call index turns) ∧
      ((∀ seen ∈ (waitReply call index turns memory).1, Sound call seen) →
        ((waitReply call index turns memory).1.any Observation.taken =
          Replied call index turns)) := by
  induction turns generalizing memory with
  | nil =>
      have heard : (call.exchanges index).last.arrival ≠ .failed := nofun
      have small : ¬ Large call (call.exchanges index).last := by
        intro large
        have size : 28 ≤ ([] : List Byte).length := large
        exact absurd size (by decide)
      obtain ⟨same, untaken⟩ := waitTurn_small call index memory
        (call.exchanges index).last heard small
      have seen : (waitReply call index [] memory).1 =
        [(waitTurn call index memory (call.exchanges index).last).1] := rfl
      rw [seen]
      constructor
      · rw [List.forall_mem_singleton, same]
        constructor
        · intro clean
          exact clean.endTicks fun passes => small passes.1
        · intro later
          exact
            { heard := heard
              header := fun large => absurd large small
              real := fun passes => absurd passes.1 small
              recvTicks := fun large => absurd large small
              endTicks := fun _ => later }
      · intro _
        rw [List.any_cons, untaken]
        rfl
  | cons turn later ih =>
      obtain ⟨same, takes⟩ := waitTurn_sound call index memory turn
      obtain ⟨sounds, replies⟩ := ih (waitTurn call index memory turn).2
      by_cases ends : (waitTurn call index memory turn).1.taken = true ∨
          GivesUp (call.exchanges index) turn
      · have seen : (waitReply call index (turn :: later) memory).1 =
            [(waitTurn call index memory turn).1] := by
          conv_lhs => unfold waitReply
          dsimp only
          rw [if_pos ends]
        rw [seen, List.forall_mem_singleton]
        constructor
        · constructor
          · intro sound
            refine ⟨same.mp sound, fun goes => absurd ?_ goes⟩
            exact ends.imp_left (takes sound).mp
          · intro clean
            exact same.mpr clean.1
        · intro sound
          rw [List.any_cons, List.any_nil, Bool.or_false]
          unfold Replied
          have took := takes sound
          by_cases passes : Passes call index turn
          · rw [took.mpr passes, decide_eq_true passes, Bool.true_or]
          · have gives := ends.resolve_left fun taken => passes (took.mp taken)
            rw [Bool.eq_false_iff.mpr fun taken => passes (took.mp taken),
              decide_eq_false passes, decide_eq_true gives]
            rfl
      · have seen : (waitReply call index (turn :: later) memory).1 =
            (waitTurn call index memory turn).1 ::
              (waitReply call index later
                (waitTurn call index memory turn).2).1 := by
          conv_lhs => unfold waitReply
          dsimp only
          rw [if_neg ends]
        have untaken := fun taken => ends (Or.inl taken)
        have keeps := fun gives => ends (Or.inr gives)
        rw [seen, List.forall_mem_cons, sounds, same]
        constructor
        · constructor
          · rintro ⟨clean, rest⟩
            exact ⟨clean, fun _ => rest⟩
          · rintro ⟨clean, rest⟩
            have took := takes (same.mpr clean)
            refine ⟨clean, rest ?_⟩
            rintro (passes | gives)
            · exact untaken (took.mpr passes)
            · exact keeps gives
        · rintro ⟨clean, rest⟩
          have took := takes (same.mpr clean)
          rw [List.any_cons, replies (sounds.mpr rest),
            Bool.eq_false_iff.mpr untaken, Bool.false_or]
          conv_rhs => unfold Replied
          rw [decide_eq_false fun passes => untaken (took.mpr passes),
            decide_eq_false keeps]
          rfl

theorem IsReply.passes (real : IsReply call index turn) :
    Passes call index turn := by
  obtain ⟨_, ⟨behind, _, id, seq⟩, _⟩ := real
  have within : headerPlace (call.received turn) + 7 <
      (call.received turn).length := by
    by_contra outside
    rw [SeqAt, List.getElem?_eq_none (Nat.not_lt.mp outside)] at seq
    cases seq.2
  refine ⟨?_, id, seq⟩
  unfold Large
  omega

/-- In a sound wait a request is answered if a turn was taken for a reply. -/
theorem waitReply_answered (turns : List Turn)
    (sound : ∀ seen ∈ (waitReply call index turns memory).1,
      Sound call seen) :
    (waitReply call index turns memory).1.any (fun one =>
        decide (one.request = index ∧ IsReply call index one.turn)) =
      Replied call index turns := by
  rw [← (waitReply_sound call index memory turns).2 sound]
  have each : ∀ one ∈ (waitReply call index turns memory).1,
      (decide (one.request = index ∧ IsReply call index one.turn) = true ↔
        one.taken = true) := by
    intro one member
    obtain ⟨before, turn, seen⟩ :=
      waitReply_turn call index memory turns one member
    have fine := sound one member
    rw [seen] at fine ⊢
    have took := (waitTurn_sound call index before turn).2 fine
    have real := fine.real
    rw [waitTurn_request, waitTurn_turn] at real
    rw [decide_eq_true_iff, waitTurn_request, waitTurn_turn]
    exact ⟨fun both => took.mpr both.2.passes, fun taken => ⟨rfl, real taken⟩⟩
  rw [Bool.eq_iff_iff, List.any_eq_true, List.any_eq_true]
  constructor
  · rintro ⟨one, member, real⟩
    exact ⟨one, member, (each one member).mp real⟩
  · rintro ⟨one, member, taken⟩
    exact ⟨one, member, (each one member).mpr taken⟩

/-! ### All requests -/

section Requests

variable (lwipChksum : List Byte → BitVec 16)

theorem length_echoRequest (len : BitVec 32) (ids seq : BitVec 16) :
    (echoRequest lwipChksum len ids seq).length =
      8 + (len - icmpEchoHdrSize).toNat := by
  unfold echoRequest echoHeader
  rw [List.length_append, List.length_map, List.length_range]
  rfl

/-- The buffer size does not overflow exactly if a request fits it. -/
theorem generatePingEcho_isSome :
    (generatePingEcho call lwipChksum memory index).isSome = true ↔
      call.dataLong.toNat + 48 < 2 ^ 32 := by
  have fits : (echoRequest lwipChksum call.requestSize call.ids
        (seqNum index)).length ≤ call.bufSize.toNat ↔
      call.dataLong.toNat + 48 < 2 ^ 32 := by
    rw [length_echoRequest]
    unfold PingCall.bufSize PingCall.requestSize
    unfold icmpEchoHdrSize PING_IP_HDR_SIZE PING_DATA_SIZE
    split
    · bv_omega
    · bv_omega
  unfold generatePingEcho
  dsimp only
  rw [← fits]
  split
  · exact iff_of_true rfl ‹_›
  · exact iff_of_false Bool.false_ne_true ‹_›

theorem pingLoop_none (full : ¬ call.dataLong.toNat + 48 < 2 ^ 32)
    (requests : Nat) (start : BitVec 32) :
    pingLoop call lwipChksum (requests + 1) index memory start = none := by
  have unfit : generatePingEcho call lwipChksum memory index = none := by
    rw [← Option.not_isSome_iff_eq_none, generatePingEcho_isSome]
    exact full
  unfold pingLoop
  rw [unfit]
  rfl

/-- The induction is on the requests that are left, with any buffer and any
count before them. -/
theorem pingLoop_some (requests : Nat)
    (fits : requests = 0 ∨ call.dataLong.toNat + 48 < 2 ^ 32)
    (start : BitVec 32) :
    ∃ pingPass seen,
      pingLoop call lwipChksum requests index memory start =
          some (pingPass, seen) ∧
        (∀ one ∈ seen, index ≤ one.request) ∧
        ((∀ one ∈ seen, Sound call one) ↔
          ∀ request, index ≤ request → request < index + requests →
            TurnsClean call request (call.exchanges request).turns) ∧
        ((∀ one ∈ seen, Sound call one) →
          pingPass = start + BitVec.ofNat 32
              ((List.range' index requests).countP fun request =>
                Replied call request (call.exchanges request).turns) ∧
            ∀ request, index ≤ request → request < index + requests →
              seen.any (fun one => decide (one.request = request ∧
                  IsReply call request one.turn)) =
                Replied call request (call.exchanges request).turns) := by
  induction requests generalizing index memory start with
  | zero =>
      refine ⟨start, [], rfl, nofun, ?_, ?_⟩
      · exact iff_of_true nofun (fun request above below => by omega)
      · intro _
        exact ⟨(BitVec.add_zero start).symm, fun request above below => by omega⟩
  | succ requests ih =>
      have room := fits.resolve_left (Nat.succ_ne_zero requests)
      obtain ⟨built, generated⟩ := Option.isSome_iff_exists.mp
        ((generatePingEcho_isSome call index memory lwipChksum).mpr room)
      rcases waited : waitReply call index (call.exchanges index).turns built
        with ⟨first, memoryAfter⟩
      have sounds := (waitReply_sound call index built
        (call.exchanges index).turns).1
      have replies := (waitReply_sound call index built
        (call.exchanges index).turns).2
      have turns := waitReply_turn call index built (call.exchanges index).turns
      have answers := waitReply_answered call index built
        (call.exchanges index).turns
      rw [waited] at sounds replies turns answers
      dsimp only at sounds replies turns answers
      have owned : ∀ one ∈ first, one.request = index := by
        intro one member
        obtain ⟨before, turn, seen⟩ := turns one member
        rw [seen, waitTurn_request]
      obtain ⟨pingPass, others, looped, behind, soundly, counted⟩ :=
        ih (index + 1) memoryAfter (Or.inr room)
          (if first.any Observation.taken then start + 1 else start)
      refine ⟨pingPass, first ++ others, ?_, ?_, ?_, ?_⟩
      · unfold pingLoop
        rw [generated]
        dsimp only [Option.bind_eq_bind, Option.bind_some]
        rw [waited]
        dsimp only
        rw [looped]
        rfl
      · intro one member
        rcases List.mem_append.mp member with here | later
        · exact (owned one here).ge
        · exact (Nat.le_succ index).trans (behind one later)
      · rw [List.forall_mem_append, sounds, soundly]
        constructor
        · rintro ⟨clean, rest⟩ request above below
          rcases above.eq_or_lt with rfl | later
          · exact clean
          · exact rest request later (by omega)
        · intro clean
          exact ⟨clean index le_rfl (by omega),
            fun request above below => clean request (by omega) (by omega)⟩
      · intro sound
        rw [List.forall_mem_append] at sound
        obtain ⟨passes, rest⟩ := counted sound.2
        constructor
        · rw [passes, replies sound.1, List.range'_succ, List.countP_cons]
          by_cases replied :
              Replied call index (call.exchanges index).turns = true
          · rw [if_pos replied, if_pos replied, BitVec.ofNat_add]
            bv_omega
          · rw [if_neg replied, if_neg replied]
            rfl
        · intro request above below
          rw [List.any_append]
          rcases above.eq_or_lt with rfl | later
          · have none_ : others.any (fun one => decide (one.request = index ∧
                IsReply call index one.turn)) = false := by
              rw [List.any_eq_false]
              intro one member real
              have after := behind one member
              have same := (of_decide_eq_true real).1
              omega
            rw [none_, Bool.or_false, answers sound.1]
          · have none_ : first.any (fun one => decide (one.request = request ∧
                IsReply call request one.turn)) = false := by
              rw [List.any_eq_false]
              intro one member real
              have here := owned one member
              have same := (of_decide_eq_true real).1
              omega
            rw [none_, Bool.false_or, rest request later (by omega)]

/-- What `ping` returns for a count of replies is right up to the largest
`s32_t`. -/
theorem returned_iff (replies : Nat) (below : replies < 2 ^ 32) :
    (if 0 < (BitVec.ofNat 32 replies).toInt then
        (BitVec.ofNat 32 replies).toInt else -1) =
      (if replies = 0 then -1 else (replies : Int)) ↔ replies < 2 ^ 31 := by
  rw [BitVec.toInt_eq_toNat_cond, BitVec.toNat_ofNat, Nat.mod_eq_of_lt below]
  split
  · split
    · split
      · omega
      · omega
    · split
      · omega
      · omega
  · split
    · omega
    · split
      · omega
      · omega

end Requests

/-- `ping` counts exactly the real replies, reads only what was received,
computes exact times and closes its socket, if and only if there is no socket
or its run is clean. -/
theorem pingPromise_iff (lwipChksum : List Byte → BitVec 16) :
    PingPromise call lwipChksum ↔ PingClean call := by
  unfold PingPromise PingClean ping
  by_cases opens : call.opens = true
  · rw [if_neg (not_not.mpr opens)]
    by_cases allocates : call.allocates = true
    · rw [if_neg (not_not.mpr allocates)]
      have room_iff : call.count.toNat = 0 ↔ call.count = 0 := by
        rw [← BitVec.toNat_inj]
        exact Iff.rfl
      by_cases fits : call.count.toNat = 0 ∨ call.dataLong.toNat + 48 < 2 ^ 32
      · obtain ⟨pingPass, seen, looped, _, soundly, counted⟩ :=
          pingLoop_some call 0 call.memory lwipChksum call.count.toNat fits 0
        rw [looped]
        -- what both sides say once the run is sound
        have value (sound : ∀ one ∈ seen, Sound call one) :
            ((if 0 < pingPass.toInt then pingPass.toInt else -1) =
                (if answered call seen = 0 then -1
                  else (answered call seen : Int))) ↔
              (List.range call.count.toNat).countP (fun index =>
                Replied call index (call.exchanges index).turns) < 2 ^ 31 := by
          obtain ⟨passes, replies⟩ := counted sound
          have same : answered call seen =
              (List.range call.count.toNat).countP (fun index =>
                Replied call index (call.exchanges index).turns) := by
            unfold answered
            apply List.countP_congr
            intro request member
            rw [replies request (Nat.zero_le _)
              (by rw [Nat.zero_add]; exact List.mem_range.mp member)]
          rw [passes, BitVec.ofNat_eq_ofNat, BitVec.zero_add, ← List.range_eq_range', same]
          apply returned_iff
          calc _ ≤ (List.range call.count.toNat).length := List.countP_le_length
            _ = call.count.toNat := List.length_range
            _ < 2 ^ 32 := call.count.isLt
        constructor
        · rintro ⟨pinged, returned, right, sound, _⟩
          rw [← Option.some.inj returned] at right sound
          refine Or.inr ⟨allocates, fits.imp_left room_iff.mp, ?_, ?_⟩
          · intro index below
            exact soundly.mp sound index (Nat.zero_le _) (by omega)
          · exact (value sound).mp right
        · rintro (closed | ⟨_, _, clean, small⟩)
          · exact absurd (closed.symm.trans opens) Bool.false_ne_true
          · have sound := soundly.mpr fun request _ below =>
              clean request (by omega)
            exact ⟨_, rfl, (value sound).mpr small, sound, fun _ => rfl⟩
      · rw [not_or] at fits
        obtain ⟨requests, several⟩ := Nat.exists_eq_succ_of_ne_zero fits.1
        rw [several, pingLoop_none call 0 call.memory lwipChksum fits.2]
        apply iff_of_false
        · rintro ⟨pinged, returned, _⟩
          cases returned
        · rintro (closed | ⟨_, room | room, _⟩)
          · exact Bool.false_ne_true (closed.symm.trans opens)
          · exact fits.1 (room_iff.mpr room)
          · exact fits.2 room
    · rw [if_pos allocates]
      apply iff_of_false
      · rintro ⟨pinged, returned, _, _, closes⟩
        rw [← Option.some.inj returned] at closes
        exact Bool.false_ne_true (closes rfl)
      · rintro (closed | ⟨allocated, _⟩)
        · exact Bool.false_ne_true (closed.symm.trans opens)
        · exact allocates allocated
  · rw [if_pos opens]
    have none_ : answered call [] = 0 := by
      unfold answered
      exact List.countP_eq_zero.mpr fun _ _ => Bool.false_ne_true
    apply iff_of_true
    · refine ⟨_, rfl, ?_, nofun, nofun⟩
      rw [none_]
      rfl
    · exact Or.inl (Bool.eq_false_iff.mpr opens)

/-! ### A request taken for a reply -/

theorem reached_at_once : PING_TO ≤ timeElapse 0 5000 := by decide

/-- Another host pings this one with the id and the number that are waited
for. -/
def foreignPing : PingCall where
  sinAddr := 0x0101a8c0
  count := 1
  dataLong := 0
  pingIds := 0x1234
  opens := true
  allocates := true
  memory := fun _ => 0
  exchanges := fun _ =>
    { timeStart := 0
      turns := [
        { arrival := .datagram 0x0201a8c0
            (0x45 :: List.replicate 19 0 ++ echoHeader 0 0x1235 1)
          recvTicks := 3
          endTicks := 3 }]
      gaveUp := 5000
      reached := reached_at_once }

theorem foreignPing_counted : ¬ PingPromise foreignPing (fun _ => 0) := by
  rintro ⟨pinged, returned, right, _⟩
  have counted : (ping foreignPing fun _ => 0).map
      (fun pinged => (pinged.value, answered foreignPing pinged.seen)) =
        some (1, 0) := by
    decide
  rw [returned] at counted
  obtain ⟨value, none_⟩ := Prod.mk.inj (Option.some.inj counted)
  rw [value, none_] at right
  exact absurd right (by decide)

end XR872.Network
