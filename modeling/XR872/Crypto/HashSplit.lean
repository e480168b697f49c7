/-
A byte string appended in pieces.

The words pushed and the bytes that wait are the packing of the whole string,
except where a call finds waiting bytes and does not complete their word.
-/

import XR872.Crypto.Hash
import XR872.Library.Packing
import XR872.Library.Run

namespace XR872.Crypto

open BitView
open Blocks
open Buffers
open Packing
open Runs

def Packs (session : CeSession) : Prop :=
  session.fifo = packed session.appended ∧
    session.hdl.align.waiting = rest 4 session.appended

/-- A call that finds bytes waiting completes their word, or all the bytes
concerned are zero. -/
def Completes (session : CeSession) (chunk : CeChunk) : Prop :=
  ∀ first ∈ (rest 4 session.appended).head?,
    chunk.data.length < 4 - (rest 4 session.appended).length →
      first = 0 ∧ ∀ byte ∈ chunk.data, byte = 0

instance (session : CeSession) (chunk : CeChunk) :
    Decidable (Completes session chunk) :=
  inferInstanceAs (Decidable (∀ first ∈ _, _))

/-! ### One call -/

namespace CeFifoAlign

theorem length_waiting (align : CeFifoAlign) :
    align.waiting.length = align.wordSize := by
  have size := align.word.size
  have part := align.part
  unfold waiting
  rw [List.length_take]
  omega

end CeFifoAlign

/-- A call that does not complete the word pushes nothing, and overwrites the
front of the word. -/
theorem convey_short (align : CeFifoAlign) (data : List Byte)
    (short : data.length < 4 - align.wordSize) :
    (halCrcHashConvey align data).1 = [] ∧
      (halCrcHashConvey align data).2.wordSize =
        align.wordSize + data.length ∧
      (halCrcHashConvey align data).2.word.cells =
        data ++ align.word.cells.drop data.length := by
  unfold halCrcHashConvey
  rw [dif_pos short]
  refine ⟨rfl, rfl, ?_⟩
  rw [Buffer.store_cells, List.take_zero, Nat.zero_add]
  rfl

/-- A call that completes the word cuts its data together with what waited. -/
theorem convey_completes (align : CeFifoAlign) (data : List Byte)
    (completes : 4 - align.wordSize ≤ data.length) :
    (halCrcHashConvey align data).1 = packed (align.waiting ++ data) ∧
      (halCrcHashConvey align data).2.wordSize =
        (align.wordSize + data.length) % 4 ∧
      (halCrcHashConvey align data).2.word.cells =
        rest 4 (align.waiting ++ data) ++
          List.replicate (4 - (align.wordSize + data.length) % 4) 0 := by
  have part := align.part
  have waits := align.length_waiting
  have size := align.word.size
  have fewer : (data.length - (4 - align.wordSize)) % 4 =
      (align.wordSize + data.length) % 4 := by omega
  unfold halCrcHashConvey
  rw [dif_neg (by omega)]
  refine ⟨?_, fewer, ?_⟩
  · rw [packed_complete _ _ (by omega) (by omega), waits]
    dsimp only
    congr 1
    · rw [Buffer.store_cells, List.length_take,
        List.drop_of_length_le (by omega), List.append_nil]
      rfl
    · unfold packed full
      rw [List.map_map, List.length_drop]
      have words : (data.length - (4 - align.wordSize) -
          (data.length - (4 - align.wordSize)) % 4) / 4 =
          (data.length - (4 - align.wordSize)) / 4 := by omega
      rw [words]
      apply List.map_congr_left
      intro index _
      change _ = ofBytes 32 ((List.drop (4 * index) (List.drop _ data)).take 4)
      rw [List.drop_drop]
  · have kept : (data.drop (data.length -
        (data.length - (4 - align.wordSize)) % 4)).length =
          (align.wordSize + data.length) % 4 := by
      rw [List.length_drop]
      omega
    rw [rest_complete _ _ (by omega) (by omega), waits, Buffer.store_cells,
      List.take_zero, List.nil_append, kept]
    congr 1
    · unfold rest
      rw [List.drop_drop, List.length_drop]
      congr 1
      omega
    · rw [Nat.zero_add]
      exact List.drop_replicate

/-- Bytes put in front of a word that already holds some are the bytes put
behind them only if all are zero. -/
theorem overwritten_iff (old data : List Byte)
    (short : data.length < 4 - old.length) :
    (data ++ (old ++ List.replicate (4 - old.length) 0).drop
        data.length).take (old.length + data.length) = old ++ data ↔
      data = [] ∨ ∀ first ∈ old.head?, first = 0 ∧ ∀ byte ∈ data, byte = 0 := by
  match old, data with
  | _, [] => simp
  | [], _ :: _ => simp
  | [a], [d] => simp; grind
  | [a], [d, e] => simp; grind
  | [a, b], [d] => simp; grind
  | [_], _ :: _ :: _ :: _ => simp at short; omega
  | [_, _], _ :: _ :: _ => simp at short
  | _ :: _ :: _ :: _, _ :: _ => simp at short; omega

theorem overwritten_zeros (old data : List Byte) :
    (data ++ (old ++ List.replicate (4 - old.length) 0).drop
        data.length).drop (old.length + data.length) =
      List.replicate (4 - (old.length + data.length)) 0 := by
  rw [List.drop_append, List.drop_of_length_le (by omega), List.nil_append,
    List.drop_drop, List.drop_append, List.drop_of_length_le (by omega),
    List.nil_append, List.drop_replicate]
  congr 1
  omega

/-! ### Sessions -/

theorem CeAlgorithm.append_eq (algorithm : CeAlgorithm) :
    algorithm.append = Crypto.append := by
  cases algorithm <;> rfl

theorem step_eq (algorithm : CeAlgorithm) (session : CeSession)
    (chunk : CeChunk) :
    session.step algorithm chunk =
      { hdl := {
          totalSize :=
            session.hdl.totalSize + BitVec.ofNat 64 chunk.data.length
          align := (halCrcHashConvey session.hdl.align chunk.data).2 }
        fifo := session.fifo ++
          (halCrcHashConvey session.hdl.align chunk.data).1
        appended := session.appended ++ chunk.data } := by
  have some : chunk.data.length ≠ 0 := fun none =>
    chunk.nonempty (List.eq_nil_of_length_eq_zero none)
  unfold CeSession.step
  rw [algorithm.append_eq]
  unfold append
  rw [if_neg some]

structure Counts (session : CeSession) : Prop where
  waits : session.hdl.align.wordSize = (rest 4 session.appended).length
  pushed : session.fifo.length = (packed session.appended).length
  total : session.hdl.totalSize = BitVec.ofNat 64 session.appended.length

structure Tidy (session : CeSession) : Prop where
  fifo : session.fifo = packed session.appended
  word : session.hdl.align.word.cells =
    rest 4 session.appended ++
      List.replicate (4 - (rest 4 session.appended).length) 0

/-- A word went out wrong, or will. Of two bytes that wait only the second is
left, in the place of the first. -/
def Spoilt (session : CeSession) : Prop :=
  session.fifo ≠ packed session.appended ∨
    session.hdl.align.waiting ≠ rest 4 session.appended ∧
      2 ≤ session.hdl.align.wordSize ∧
      (session.hdl.align.wordSize = 2 → ∃ older newer,
        rest 4 session.appended = [older, newer] ∧
          session.hdl.align.word.cells = [newer, 0, 0, 0])

theorem length_rest_lt (stream : List Byte) : (rest 4 stream).length < 4 := by
  rw [length_rest]
  exact Nat.mod_lt _ (by decide)

/-- What waited, and data that does not complete it, wait together. -/
theorem rest_append_short (stream data : List Byte)
    (short : data.length < 4 - (rest 4 stream).length) :
    rest 4 (stream ++ data) = rest 4 stream ++ data := by
  rw [rest_append (by decide), rest_short]
  rw [List.length_append]
  omega

theorem packed_append_short (stream data : List Byte)
    (short : data.length < 4 - (rest 4 stream).length) :
    packed (stream ++ data) = packed stream := by
  have waits : (rest 4 stream ++ data).length < 4 := by
    rw [List.length_append]
    omega
  rw [packed_append, packed_short _ waits, List.append_nil]

theorem counts_step (algorithm : CeAlgorithm) (session : CeSession)
    (chunk : CeChunk) (counts : Counts session) :
    Counts (session.step algorithm chunk) := by
  have waits := counts.waits
  have part := length_rest_lt session.appended
  have long := length_rest 4 session.appended
  have total : session.hdl.totalSize + BitVec.ofNat 64 chunk.data.length =
      BitVec.ofNat 64 (session.appended ++ chunk.data).length := by
    rw [counts.total, List.length_append, BitVec.ofNat_add]
  rw [step_eq]
  by_cases short : chunk.data.length < 4 - session.hdl.align.wordSize
  · obtain ⟨words, size, _⟩ := convey_short _ _ short
    rw [waits] at short
    refine ⟨?_, ?_, total⟩
    · change (halCrcHashConvey _ _).2.wordSize = _
      rw [size, rest_append_short _ _ short, List.length_append, waits]
    · change (session.fifo ++ _).length = _
      rw [words, packed_append_short _ _ short, List.append_nil, counts.pushed]
  · obtain ⟨words, size, _⟩ := convey_completes _ _ (Nat.le_of_not_lt short)
    refine ⟨?_, ?_, total⟩
    · change (halCrcHashConvey _ _).2.wordSize = _
      rw [size, length_rest, List.length_append, waits, long, Nat.mod_add_mod]
    · change (session.fifo ++ _).length = (packed (_ ++ _)).length
      rw [words, packed_append session.appended, List.length_append,
        List.length_append, length_packed (_ ++ chunk.data),
        length_packed (_ ++ chunk.data), List.length_append,
        List.length_append, counts.pushed, CeFifoAlign.length_waiting, waits]

theorem waiting_of_tidy (session : CeSession) (counts : Counts session)
    (tidy : Tidy session) :
    session.hdl.align.waiting = rest 4 session.appended := by
  unfold CeFifoAlign.waiting
  rw [tidy.word, counts.waits, List.take_left' rfl]

/-- A call that finds the word tidy leaves it so, or spoils it for good. -/
theorem tidy_step (algorithm : CeAlgorithm) (session : CeSession)
    (chunk : CeChunk) (counts : Counts session) (tidy : Tidy session)
    (completes : Completes session chunk) :
    Tidy (session.step algorithm chunk) := by
  have waits := counts.waits
  have part := length_rest_lt session.appended
  have long := length_rest 4 session.appended
  rw [step_eq]
  by_cases short : chunk.data.length < 4 - session.hdl.align.wordSize
  · obtain ⟨words, _, cells⟩ := convey_short _ _ short
    rw [waits] at short
    have same := (overwritten_iff (rest 4 session.appended) chunk.data
      short).mpr (.inr fun first head => completes first head short)
    refine ⟨?_, ?_⟩
    · change session.fifo ++ _ = _
      rw [words, packed_append_short _ _ short, List.append_nil, tidy.fifo]
    · change (halCrcHashConvey _ _).2.word.cells = _
      rw [cells, tidy.word, rest_append_short _ _ short]
      rw [← List.take_append_drop
        ((rest 4 session.appended).length + chunk.data.length)
        (chunk.data ++ _), same, overwritten_zeros,
        List.length_append]
  · obtain ⟨words, _, cells⟩ := convey_completes _ _ (Nat.le_of_not_lt short)
    rw [waiting_of_tidy session counts tidy] at words cells
    refine ⟨?_, ?_⟩
    · change session.fifo ++ _ = packed (_ ++ _)
      rw [words, tidy.fifo, packed_append session.appended]
    · change (halCrcHashConvey _ _).2.word.cells = _
      rw [cells, rest_append (by decide) session.appended, length_rest,
        List.length_append, waits]

theorem spoilt_of_overwritten (algorithm : CeAlgorithm) (session : CeSession)
    (chunk : CeChunk) (counts : Counts session) (tidy : Tidy session)
    (overwrites : ¬ Completes session chunk) :
    Spoilt (session.step algorithm chunk) := by
  have waits := counts.waits
  unfold Completes at overwrites
  push Not at overwrites
  obtain ⟨first, head, short, notZero⟩ := overwrites
  have short' := short
  rw [← waits] at short'
  obtain ⟨_, size, cells⟩ := convey_short _ _ short'
  have some : chunk.data.length ≠ 0 := fun none =>
    chunk.nonempty (List.eq_nil_of_length_eq_zero none)
  have older : (rest 4 session.appended).length ≠ 0 := by
    intro none
    rw [List.eq_nil_of_length_eq_zero none] at head
    cases head
  rw [step_eq]
  refine .inr ⟨?_, ?_, ?_⟩
  · change (halCrcHashConvey _ _).2.word.cells.take
      (halCrcHashConvey _ _).2.wordSize ≠ _
    rw [cells, size, tidy.word, waits, rest_append_short _ _ short]
    intro same
    rcases (overwritten_iff _ _ short).mp same with none | zeros
    · exact chunk.nonempty none
    · obtain ⟨zero, all⟩ := zeros first head
      obtain ⟨byte, member, nonzero⟩ := notZero zero
      exact nonzero (all byte member)
  · change 2 ≤ (halCrcHashConvey _ _).2.wordSize
    rw [size, waits]
    omega
  · change (halCrcHashConvey _ _).2.wordSize = 2 → _
    rw [size, waits]
    intro two
    obtain ⟨old, single⟩ := List.length_eq_one_iff.mp
      (show (rest 4 session.appended).length = 1 by omega)
    obtain ⟨newer, datum⟩ := List.length_eq_one_iff.mp
      (show chunk.data.length = 1 by omega)
    refine ⟨old, newer, ?_, ?_⟩
    · rw [rest_append_short _ _ short, single, datum]
      rfl
    · change (halCrcHashConvey _ _).2.word.cells = _
      rw [cells, tidy.word, single, datum]
      rfl

theorem spoilt_step (algorithm : CeAlgorithm) (session : CeSession)
    (chunk : CeChunk) (counts : Counts session) (spoilt : Spoilt session) :
    Spoilt (session.step algorithm chunk) := by
  have waits := counts.waits
  have part := length_rest_lt session.appended
  rw [step_eq]
  rcases spoilt with fifo | ⟨waiting, two, front⟩
  · left
    change session.fifo ++ _ ≠ _
    rw [packed_append]
    intro same
    exact fifo (List.append_inj_left same counts.pushed)
  · by_cases short : chunk.data.length < 4 - session.hdl.align.wordSize
    · have some : chunk.data.length ≠ 0 := fun none =>
        chunk.nonempty (List.eq_nil_of_length_eq_zero none)
      obtain ⟨_, size, cells⟩ := convey_short _ _ short
      have pair : session.hdl.align.wordSize = 2 := by omega
      obtain ⟨older, newer, both, word⟩ := front pair
      obtain ⟨datum, single⟩ := List.length_eq_one_iff.mp
        (show chunk.data.length = 1 by omega)
      rw [waits] at short
      refine .inr ⟨?_, ?_, ?_⟩
      · change (halCrcHashConvey _ _).2.word.cells.take
          (halCrcHashConvey _ _).2.wordSize ≠ _
        rw [cells, size, word, rest_append_short _ _ short, pair, both, single]
        intro same
        simp only [List.length_singleton, List.drop_succ_cons, List.drop_zero,
          List.take_succ_cons, List.take_zero,
          List.cons_append, List.nil_append, List.cons.injEq, and_true] at same
        obtain ⟨first, second, third⟩ := same
        apply waiting
        unfold CeFifoAlign.waiting
        rw [word, both, pair, ← first, ← second, ← third]
        rfl
      · change 2 ≤ (halCrcHashConvey _ _).2.wordSize
        omega
      · change (halCrcHashConvey _ _).2.wordSize = 2 → _
        omega
    · obtain ⟨words, _, _⟩ := convey_completes _ _ (Nat.le_of_not_lt short)
      left
      change session.fifo ++ _ ≠ packed (_ ++ _)
      rw [words, packed_append session.appended]
      intro same
      have wrong := List.append_inj_right same counts.pushed
      have waited := CeFifoAlign.length_waiting session.hdl.align
      rw [packed_complete _ _ (by omega) (by omega),
        packed_complete _ _ part (by omega)] at wrong
      have heads := ofBytes_injective _ _
        (by rw [List.length_append, List.length_take]; omega)
        (by rw [List.length_append, List.length_take]; omega)
        (List.cons.inj wrong).1
      exact waiting (List.append_inj_left heads (by rw [waited, waits]))

theorem not_packs_of_spoilt (session : CeSession) (spoilt : Spoilt session) :
    ¬ Packs session := by
  rintro ⟨fifo, waiting⟩
  rcases spoilt with wrong | ⟨wrong, _⟩
  · exact wrong fifo
  · exact wrong waiting

theorem not_packs_run (algorithm : CeAlgorithm) (chunks : List CeChunk)
    (session : CeSession) (counts : Counts session) (spoilt : Spoilt session) :
    ¬ Packs (run (CeSession.step algorithm) session chunks) := by
  induction chunks generalizing session with
  | nil => exact not_packs_of_spoilt session spoilt
  | cons chunk rest ih =>
      exact ih _ (counts_step algorithm session chunk counts)
        (spoilt_step algorithm session chunk counts spoilt)

/-- The packing comes out right exactly if no call ever overwrites bytes that
wait. -/
theorem packs_run_iff (algorithm : CeAlgorithm) (chunks : List CeChunk)
    (session : CeSession) (counts : Counts session) (tidy : Tidy session) :
    Packs (run (CeSession.step algorithm) session chunks) ↔
      Along (CeSession.step algorithm) Completes session chunks := by
  induction chunks generalizing session with
  | nil =>
      exact iff_of_true
        ⟨tidy.fifo, waiting_of_tidy session counts tidy⟩ trivial
  | cons chunk rest ih =>
      have counts' := counts_step algorithm session chunk counts
      rw [run_cons]
      constructor
      · intro packs
        have completes : Completes session chunk := by
          by_contra overwrites
          exact not_packs_run algorithm rest _ counts'
            (spoilt_of_overwritten algorithm session chunk counts tidy
              overwrites) packs
        exact ⟨completes, (ih _ counts' (tidy_step algorithm session chunk
          counts tidy completes)).mp packs⟩
      · rintro ⟨completes, along⟩
        exact (ih _ counts' (tidy_step algorithm session chunk counts tidy
          completes)).mpr along

/-! ### After an `Init` -/

theorem init_zero (algorithm : CeAlgorithm) (before hdl : CeHandler)
    (locks : HalStatus × HalStatus)
    (ready : algorithm.init before locks = (.ok, hdl)) : hdl = .zero := by
  have hash : ∀ lock, hashInit before lock = (.ok, hdl) → hdl = .zero := by
    intro lock done
    unfold hashInit at done
    split at done
    · rename_i failed
      exact absurd (congrArg Prod.fst done) failed
    · exact (congrArg Prod.snd done).symm
  cases algorithm with
  | md5 => exact hash _ ready
  | sha1 => exact hash _ ready
  | sha256 => exact hash _ ready
  | crc totalSize =>
      change halCrcInit1 _ totalSize locks.2 = _ at ready
      unfold halCrcInit1 at ready
      split at ready
      · cases ready
      · split at ready
        · rename_i failed
          exact absurd (congrArg Prod.fst ready) failed
        · exact (congrArg Prod.snd ready).symm

theorem counts_start : Counts (CeSession.start .zero) :=
  { waits := rfl
    pushed := rfl
    total := rfl }

theorem tidy_start : Tidy (CeSession.start .zero) :=
  { fifo := rfl
    word := rfl }

theorem counts_run (algorithm : CeAlgorithm) (chunks : List CeChunk) :
    Counts (run (CeSession.step algorithm) (CeSession.start .zero) chunks) :=
  run_invariant Counts (counts_step algorithm) _ counts_start chunks

theorem appended_run (algorithm : CeAlgorithm) (chunks : List CeChunk)
    (session : CeSession) :
    (run (CeSession.step algorithm) session chunks).appended =
      session.appended ++ (chunks.map CeChunk.data).flatten := by
  induction chunks generalizing session with
  | nil => exact (List.append_nil _).symm
  | cons chunk rest ih =>
      rw [run_cons, ih, step_eq, List.map_cons, List.flatten_cons,
        List.append_assoc]

/-- One append of a whole string after an `Init`. -/
theorem single_append (algorithm : CeAlgorithm) (whole : List Byte) :
    (algorithm.append .zero whole).2.1 = packed whole ∧
      (algorithm.append .zero whole).2.2.align.waiting = rest 4 whole := by
  rw [algorithm.append_eq]
  unfold append
  split
  · rename_i none
    rw [List.eq_nil_of_length_eq_zero none]
    exact ⟨rfl, rfl⟩
  · change (halCrcHashConvey .empty whole).1 = _ ∧
      (halCrcHashConvey .empty whole).2.word.cells.take
        (halCrcHashConvey .empty whole).2.wordSize = _
    by_cases short : whole.length < 4
    · obtain ⟨words, size, cells⟩ := convey_short .empty whole short
      rw [words, size, cells, packed_short whole short, rest_short whole short]
      refine ⟨rfl, ?_⟩
      change (whole ++ _).take (0 + whole.length) = whole
      rw [Nat.zero_add, List.take_left' rfl]
    · obtain ⟨words, size, cells⟩ :=
        convey_completes .empty whole (Nat.le_of_not_lt short)
      rw [words, size, cells]
      refine ⟨rfl, List.take_left' ?_⟩
      change (rest 4 whole).length = (0 + whole.length) % 4
      rw [length_rest, Nat.zero_add]

/-- What the appends of a session are to come to: the packing of the whole
string, which is what one append of it gives, and its length. -/
def SplitFree (algorithm : CeAlgorithm) (hdl : CeHandler)
    (chunks : List CeChunk) : Prop :=
  let whole := (chunks.map CeChunk.data).flatten
  let session := run (CeSession.step algorithm) (CeSession.start hdl) chunks
  let single := algorithm.append hdl whole
  (session.fifo = packed whole ∧
      session.hdl.align.waiting = rest 4 whole) ∧
    (session.fifo = single.2.1 ∧
      session.hdl.align.waiting = single.2.2.align.waiting) ∧
    session.hdl.totalSize.toNat = whole.length

instance (algorithm : CeAlgorithm) (hdl : CeHandler) (chunks : List CeChunk) :
    Decidable (SplitFree algorithm hdl chunks) :=
  inferInstanceAs (Decidable ((_ ∧ _) ∧ (_ ∧ _) ∧ _))

/-- After an `Init` the way the data is cut does not show exactly if no call
overwrites bytes that wait with others, and the length is a `uint64_t`. -/
theorem splitFree_iff (algorithm : CeAlgorithm) (before hdl : CeHandler)
    (locks : HalStatus × HalStatus)
    (ready : algorithm.init before locks = (.ok, hdl)) (chunks : List CeChunk) :
    SplitFree algorithm hdl chunks ↔
      Along (CeSession.step algorithm) Completes (CeSession.start hdl) chunks ∧
        (chunks.map CeChunk.data).flatten.length < 2 ^ 64 := by
  rw [init_zero algorithm before hdl locks ready]
  have appended := appended_run algorithm chunks (CeSession.start .zero)
  have single := single_append algorithm (chunks.map CeChunk.data).flatten
  have packs := packs_run_iff algorithm chunks _ counts_start tidy_start
  have total : (run (CeSession.step algorithm) (CeSession.start .zero)
      chunks).hdl.totalSize.toNat = (chunks.map CeChunk.data).flatten.length ↔
        (chunks.map CeChunk.data).flatten.length < 2 ^ 64 := by
    rw [(counts_run algorithm chunks).total, appended, BitVec.toNat_ofNat]
    exact Nat.mod_eq_iff_lt (by decide)
  change _ = [] ++ _ at appended
  rw [List.nil_append] at appended
  unfold Packs at packs
  rw [appended] at packs
  unfold SplitFree
  dsimp only
  rw [single.1, single.2, total, packs]
  constructor
  · rintro ⟨along, _, small⟩
    exact ⟨along, small⟩
  · rintro ⟨along, small⟩
    exact ⟨along, along, small⟩

/-- Three bytes after one complete its word. -/
theorem completed_splitFree :
    SplitFree .md5 .zero
        [⟨[1], by decide, by decide⟩, ⟨[2, 3, 4], by decide, by decide⟩] ↔
      Along (CeSession.step .md5) Completes (CeSession.start .zero)
          [⟨[1], by decide, by decide⟩, ⟨[2, 3, 4], by decide, by decide⟩] ∧
        ([1, 2, 3, 4] : List Byte).length < 2 ^ 64 :=
  splitFree_iff .md5 .zero .zero (.ok, .ok) rfl _

/-- One byte after one takes its place. -/
theorem overwritten_split :
    CeAlgorithm.md5.init .zero (.ok, .ok) = (.ok, .zero) ∧
      ¬ SplitFree .md5 .zero
        [⟨[1], by decide, by decide⟩, ⟨[2], by decide, by decide⟩] := by
  decide

end XR872.Crypto
