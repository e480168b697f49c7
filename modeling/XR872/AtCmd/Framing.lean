/-
The command lines of a stream, and the lines the parser hands on.

Between turns the cache is the beginning of a line of the stream, and the lines
still to come are those of the bytes not yet read behind it. The LF of a CRLF
is read again after its line, as the end of a blank line.
-/

import XR872.AtCmd.Parse

namespace XR872.AtCmd

open BitView
open Buffers
open Lines
open Rings
open Runs

variable {n : Nat}

/-- The lines of a stream that are not blank and fit the cache with their
end. -/
def commandLines (stream : List Byte) : List (List Byte) :=
  select CMD_CACHE_MAX_LEN (linesFrom AT_CR AT_LF [] stream)

def linesAfter (part stream : List Byte) : List (List Byte) :=
  select CMD_CACHE_MAX_LEN (linesFrom AT_CR AT_LF part stream)

structure Framed (stream : List Byte) (parser : AtParser n) (reader : Reader) :
    Prop where
  inside : parser.outside = false
  idle : parser.flag = false
  plain : ∀ char ∈ parser.cache, Plain AT_CR AT_LF char
  short : parser.cache.length ≤ CMD_CACHE_MAX_LEN
  reads : Reads parser.queue reader
  ahead : parser.cache ++ reader.unread <:+ stream
  lines : commandLines stream =
    parser.handed ++ linesAfter parser.cache reader.unread

/-! ### Ends of lines -/

theorem atParseAppend_hands (parser : AtParser n) (tmp : Byte)
    (localecho1 : Bool) (flag : parser.flag = true)
    (room : parser.cache.length + 1 + localecho1.toNat ≤ CMD_CACHE_MAX_LEN) :
    atParseAppend parser tmp localecho1 =
      { parser with
        calls := parser.calls ++ [parser.cache ++ [tmp]]
        cache := []
        flag := false } := by
  have free : parser.cache.length < CMD_CACHE_MAX_LEN := by omega
  unfold atParseAppend atParseRespond
  rw [if_pos free, if_pos flag]
  apply if_neg
  rintro ⟨echo, full⟩
  rw [echo, Bool.toNat_true] at room
  rw [List.length_append, List.length_singleton] at full
  omega

theorem atParseEnd_hands (parser : AtParser n) (tmp : Byte) (localecho1 : Bool)
    (room : parser.cache.length + 2 + localecho1.toNat ≤ CMD_CACHE_MAX_LEN) :
    atParseEnd parser tmp localecho1 =
      { parser with
        calls := parser.calls ++ [parser.cache ++ [tmp, tmp]]
        cache := []
        flag := false } := by
  have free : parser.cache.length < CMD_CACHE_MAX_LEN := by omega
  unfold atParseEnd
  rw [if_pos free, atParseAppend_hands _ _ _ rfl
    (by rw [List.length_append, List.length_singleton]; omega),
    List.append_assoc]
  rfl

theorem atParseEnd_full (parser : AtParser n) (tmp : Byte) (localecho1 : Bool)
    (full : parser.cache.length = CMD_CACHE_MAX_LEN) :
    atParseEnd parser tmp localecho1 = parser.discard :=
  if_neg (by omega)

theorem atParseAppend_keeps (parser : AtParser n) (tmp : Byte)
    (localecho1 : Bool) (idle : parser.flag = false)
    (free : parser.cache.length < CMD_CACHE_MAX_LEN) :
    atParseAppend parser tmp localecho1 =
      { parser with cache := parser.cache ++ [tmp] } := by
  unfold atParseAppend atParseRespond
  rw [if_pos free]
  apply if_neg
  rw [idle]
  exact Bool.false_ne_true

theorem atParseAppend_full (parser : AtParser n) (tmp : Byte)
    (localecho1 : Bool) (full : parser.cache.length = CMD_CACHE_MAX_LEN) :
    atParseAppend parser tmp localecho1 = parser.discard :=
  if_neg (by omega)

/-! ### One byte -/

structure Taken (stream : List Byte) (parser : AtParser n) (tmp : Byte)
    (reader : Reader) : Prop where
  inside : parser.outside = false
  idle : parser.flag = false
  plain : ∀ char ∈ parser.cache, Plain AT_CR AT_LF char
  short : parser.cache.length ≤ CMD_CACHE_MAX_LEN
  reads : Reads parser.queue reader
  ahead : parser.cache ++ tmp :: reader.unread <:+ stream
  lines : commandLines stream =
    parser.handed ++ linesAfter parser.cache (tmp :: reader.unread)

section Byte

variable (stream : List Byte) (parser : AtParser n) (reader : Reader)

theorem taken_rest (tmp : Byte) (taken : Taken stream parser tmp reader) :
    reader.unread <:+ stream :=
  ((List.suffix_cons tmp reader.unread).trans
    (List.suffix_append parser.cache _)).trans taken.ahead

theorem framed_handed (tmp : Byte) (queue : AtQueue n) (later : Reader)
    (ending : List Byte) (taken : Taken stream parser tmp reader)
    (ends : ending.head? = some AT_CR ∨ ending.head? = some AT_LF)
    (reads : Reads queue later) (same : later.unread = reader.unread)
    (lines : linesAfter parser.cache (tmp :: reader.unread) =
      kept parser.cache ++ linesAfter [] reader.unread) :
    Framed stream
      { parser with
        queue
        calls := parser.calls ++ [parser.cache ++ ending]
        cache := []
        flag := false } later := by
  exact {
    inside := taken.inside
    idle := rfl
    plain := by
      intro char member
      cases member
    short := Nat.zero_le _
    reads := reads
    ahead := by
      rw [same]
      exact taken_rest stream parser reader tmp taken
    lines := by
      rw [handed_call, lineOf_plain _ taken.plain ending ends, taken.lines,
        lines, same, List.append_assoc] }

theorem framed_discarded (tmp : Byte) (queue : AtQueue n) (later : Reader)
    (taken : Taken stream parser tmp reader) (reads : Reads queue later)
    (same : later.unread = reader.unread)
    (lines : linesAfter parser.cache (tmp :: reader.unread) =
      linesAfter [] reader.unread) :
    Framed stream ({ parser with queue } : AtParser n).discard later := by
  exact {
    inside := taken.inside
    idle := taken.idle
    plain := by
      intro char member
      cases member
    short := Nat.zero_le _
    reads := reads
    ahead := by
      rw [same]
      exact taken_rest stream parser reader tmp taken
    lines := by
      rw [taken.lines, lines, ← same]
      rfl }

theorem framed_lf (localecho1 : Bool) (taken : Taken stream parser AT_LF reader)
    (clean : parser.cache.length + 2 + localecho1.toNat ≤ CMD_CACHE_MAX_LEN ∨
      parser.cache.length = CMD_CACHE_MAX_LEN) :
    Framed stream (atParseEnd parser AT_LF localecho1) reader := by
  rcases clean with room | full
  · rw [atParseEnd_hands _ _ _ room]
    apply framed_handed stream parser reader AT_LF parser.queue reader _ taken
      (Or.inr rfl) taken.reads rfl
    exact select_lf _ _ _ _ _ atCr_ne_atLf (by omega)
  · rw [atParseEnd_full _ _ _ full]
    apply framed_discarded stream parser reader AT_LF parser.queue reader taken
      taken.reads rfl
    exact select_lf_long _ _ _ _ _ atCr_ne_atLf (by omega)

theorem framed_plain (tmp : Byte) (localecho1 : Bool)
    (taken : Taken stream parser tmp reader) (plain : Plain AT_CR AT_LF tmp)
    (clean : parser.cache.length < CMD_CACHE_MAX_LEN ∨
      NothingLeft parser.queue.unread) :
    Framed stream (atParseAppend parser tmp localecho1) reader := by
  have begun : linesAfter parser.cache (tmp :: reader.unread) =
      linesAfter (parser.cache ++ [tmp]) reader.unread :=
    congrArg (select _) (linesFrom_plain _ _ _ _ tmp plain)
  by_cases free : parser.cache.length < CMD_CACHE_MAX_LEN
  · rw [atParseAppend_keeps _ _ _ taken.idle free]
    exact {
      inside := taken.inside
      idle := taken.idle
      plain := by
        intro char member
        rcases List.mem_append.mp member with old | new
        · exact taken.plain char old
        · rw [List.mem_singleton.mp new]
          exact plain
      short := by
        rw [List.length_append, List.length_singleton]
        exact free
      reads := taken.reads
      ahead := by
        change parser.cache ++ [tmp] ++ reader.unread <:+ stream
        rw [← List.append_cons]
        exact taken.ahead
      lines := by
        rw [taken.lines, begun]
        rfl }
  · have full : parser.cache.length = CMD_CACHE_MAX_LEN :=
      Nat.le_antisymm taken.short (Nat.le_of_not_lt free)
    have refused := clean.resolve_left free
    rw [reads_unread _ _ taken.reads] at refused
    rw [atParseAppend_full _ _ _ full]
    apply framed_discarded stream parser reader tmp parser.queue reader taken
      taken.reads rfl
    rw [begun]
    apply select_front _ _ _ _ _ atCr_ne_atLf _ refused
    rw [List.length_append, List.length_singleton, full]
    exact Nat.lt_succ_self _

/-- The three things a CR can be followed by: nothing yet, another byte, or its
LF. -/
theorem framed_cr (localecho1 : Bool) (taken : Taken stream parser AT_CR reader)
    (clean : if PeeksLf parser.queue then
        parser.cache.length + 3 + localecho1.toNat ≤ CMD_CACHE_MAX_LEN ∨
          parser.cache.length + 1 = CMD_CACHE_MAX_LEN
      else parser.cache.length + 2 + localecho1.toNat ≤ CMD_CACHE_MAX_LEN) :
    Framed stream (atParseCr parser AT_CR localecho1) reader.fill := by
  obtain ⟨peeked, peek, reads⟩ := atQueuePeek_reads _ _ taken.reads
  have stored : (parser.cache ++ [AT_CR]).length = parser.cache.length + 1 := by
    rw [List.length_append, List.length_singleton]
  rcases reader.peek_cases with ⟨nothing, _⟩ | ⟨following, rest, found, seen⟩
  · rw [nothing] at peek reads
    have unseen : ¬ PeeksLf parser.queue := by
      unfold PeeksLf
      rw [peek]
      simp
    rw [if_neg unseen] at clean
    have free : ¬ CMD_CACHE_MAX_LEN ≤ parser.cache.length := by omega
    unfold atParseCr
    rw [if_neg free]
    simp only [peek]
    rw [atParseAppend_hands _ _ _ rfl (by rw [stored]; omega), List.append_assoc]
    apply framed_handed stream parser reader AT_CR peeked _ _ taken
      (Or.inl rfl) reads reader.unread_fill
    exact select_cr _ _ _ _ _ atCr_ne_atLf (by omega)
  · rw [seen] at peek reads
    by_cases feed : following = AT_LF
    · subst feed
      have lf : PeeksLf parser.queue := by
        unfold PeeksLf
        rw [peek]
        rfl
      rw [if_pos lf] at clean
      obtain ⟨again, second, still⟩ := atQueuePeek_reads _ _ reads
      have same : reader.fill.peek = (.ok AT_LF, reader.fill) := by
        unfold Reader.peek
        rw [Reader.fill_ready _ _ _ found, found]
      rw [same] at second still
      have free : ¬ CMD_CACHE_MAX_LEN ≤ parser.cache.length := by omega
      unfold atParseCr
      rw [if_neg free]
      simp only [peek, if_true, second]
      rcases clean with room | full
      · rw [atParseEnd_hands _ _ _ (by rw [stored]; omega), List.append_assoc]
        apply framed_handed stream parser reader AT_CR again _ _ taken
          (Or.inl rfl) still reader.unread_fill
        exact select_cr _ _ _ _ _ atCr_ne_atLf (by omega)
      · rw [atParseEnd_full _ _ _ (stored.trans full)]
        apply framed_discarded stream parser reader AT_CR again _ taken still
          reader.unread_fill
        have unread : reader.unread = AT_LF :: (rest ++ streamOf reader.fill.coming) := by
          rw [← reader.unread_fill]
          unfold Reader.unread
          rw [found, List.cons_append]
        rw [unread]
        exact select_cr_lf_long _ _ _ _ _ atCr_ne_atLf (by omega)
    · have unseen : ¬ PeeksLf parser.queue := by
        unfold PeeksLf
        rw [peek]
        simp [feed]
      rw [if_neg unseen] at clean
      have free : ¬ CMD_CACHE_MAX_LEN ≤ parser.cache.length := by omega
      unfold atParseCr
      rw [if_neg free]
      simp only [peek, if_neg feed]
      rw [atParseAppend_hands _ _ _ rfl (by rw [stored]; omega),
        List.append_assoc]
      apply framed_handed stream parser reader AT_CR peeked _ _ taken
        (Or.inl rfl) reads reader.unread_fill
      exact select_cr _ _ _ _ _ atCr_ne_atLf (by omega)

theorem framed_byte (tmp : Byte) (localecho1 : Bool)
    (taken : Taken stream parser tmp reader)
    (clean : CleanByte parser tmp localecho1) :
    ∃ later, Framed stream (atParseByte parser tmp localecho1) later ∧
      later.work ≤ reader.work := by
  unfold CleanByte at clean
  unfold atParseByte
  by_cases feed : tmp = AT_LF
  · subst feed
    rw [if_pos rfl] at clean ⊢
    exact ⟨reader, framed_lf stream parser reader localecho1 taken clean,
      Nat.le_refl _⟩
  · rw [if_neg feed] at clean ⊢
    by_cases carriage : tmp = AT_CR
    · subst carriage
      rw [if_pos rfl] at clean ⊢
      exact ⟨reader.fill, framed_cr stream parser reader localecho1 taken clean,
        reader.work_fill⟩
    · rw [if_neg carriage] at clean ⊢
      exact ⟨reader, framed_plain stream parser reader tmp localecho1 taken
        ⟨carriage, feed⟩ clean, Nat.le_refl _⟩

end Byte

/-! ### Turns and runs -/

theorem framed_get (stream : List Byte) (parser : AtParser n) (reader : Reader)
    (framed : Framed stream parser reader) :
    (∃ queue, atQueueGet parser.queue = some (.empty, queue) ∧
        Framed stream { parser with queue } reader.fill ∧
        reader.fill.work ≤ reader.work - 1) ∨
      ∃ tmp queue later, atQueueGet parser.queue = some (.ok tmp, queue) ∧
        Taken stream { parser with queue } tmp later ∧
        later.work ≤ reader.work - 1 := by
  obtain ⟨queue, get, reads⟩ := atQueueGet_reads _ _ framed.reads
  rcases reader.get_cases with ⟨nothing, drained⟩ | ⟨tmp, rest, found, taken⟩
  · rw [nothing] at get reads
    refine Or.inl ⟨queue, get, ?_, ?_⟩
    · exact {
        inside := framed.inside
        idle := framed.idle
        plain := framed.plain
        short := framed.short
        reads := reads
        ahead := by
          rw [reader.unread_fill]
          exact framed.ahead
        lines := by
          rw [reader.unread_fill]
          exact framed.lines }
    · have bound := reader.work_fill
      rcases reader.work_empty drained with less | done
      · omega
      · omega
  · rw [taken] at get reads
    refine Or.inr ⟨tmp, queue, _, get, ?_,
      Nat.le_sub_one_of_lt (reader.work_get tmp rest found)⟩
    exact {
      inside := framed.inside
      idle := framed.idle
      plain := framed.plain
      short := framed.short
      reads := reads
      ahead := by
        rw [← reader.unread_get tmp rest found]
        exact framed.ahead
      lines := by
        rw [← reader.unread_get tmp rest found]
        exact framed.lines }

theorem framed_turn (stream : List Byte) (parser : AtParser n)
    (reader : Reader) (localecho1 : Bool) (framed : Framed stream parser reader)
    (clean : CleanTurn parser localecho1) :
    ∃ later, Framed stream (atParseTurn parser localecho1) later ∧
      later.work ≤ reader.work - 1 := by
  have running : ¬ parser.outside = true := by
    rw [framed.inside]
    exact Bool.false_ne_true
  unfold CleanTurn at clean
  unfold atParseTurn
  rw [if_neg running]
  rcases framed_get stream parser reader framed with
    ⟨queue, get, kept, work⟩ | ⟨tmp, queue, later, get, taken, work⟩
  · have idle : ¬ parser.flag = true := by
      rw [framed.idle]
      exact Bool.false_ne_true
    have resting : atParseRespond { parser with queue } localecho1 =
        { parser with queue } := if_neg idle
    simp only [get, resting]
    exact ⟨reader.fill, kept, work⟩
  · rw [get] at clean ⊢
    obtain ⟨last, kept, less⟩ :=
      framed_byte stream _ later tmp localecho1 taken clean
    exact ⟨last, kept, Nat.le_trans less work⟩

theorem framed_run (stream : List Byte) (parser : AtParser n)
    (reader : Reader) (echoes : List Bool) (framed : Framed stream parser reader)
    (clean : Along atParseTurn CleanTurn parser echoes) :
    ∃ later, Framed stream (run atParseTurn parser echoes) later ∧
      later.work ≤ reader.work - echoes.length := by
  induction echoes generalizing parser reader with
  | nil => exact ⟨reader, framed, Nat.le_refl _⟩
  | cons localecho1 rest ih =>
      obtain ⟨next, kept, less⟩ :=
        framed_turn stream parser reader localecho1 framed clean.1
      obtain ⟨later, last, work⟩ := ih _ next kept clean.2
      refine ⟨later, last, ?_⟩
      rw [List.length_cons]
      omega

theorem framed_start (cells : Buffer Byte n) (supply : List Delivery)
    (queue : AtQueue n)
    (init : atQueueInit (some cells) (some supply) = some queue)
    (fits : ∀ delivery ∈ supply, delivery.bytes.length ≤ n) :
    Framed (streamOf supply) (atParseStart queue)
      { ready := [], coming := supply } := by
  obtain ⟨same, known, reads⟩ := reads_init cells supply fits
  rw [known] at init
  cases init
  exact {
    inside := rfl
    idle := rfl
    plain := by
      intro char member
      cases member
    short := Nat.zero_le _
    reads := reads
    ahead := List.suffix_rfl
    lines := rfl }

theorem framed_prefix (stream : List Byte) (parser : AtParser n)
    (reader : Reader) (framed : Framed stream parser reader) :
    parser.handed <+: commandLines stream :=
  ⟨_, framed.lines.symm⟩

theorem framed_done (stream : List Byte) (parser : AtParser n)
    (reader : Reader) (framed : Framed stream parser reader)
    (done : reader.work = 0) : parser.handed = commandLines stream := by
  have empty : reader.unread = [] := by
    unfold Reader.work at done
    exact List.eq_nil_of_length_eq_zero (by omega)
  have nothing : linesAfter parser.cache [] = [] := rfl
  rw [framed.lines, empty, nothing, List.append_nil]

/-- The commands that the command lines of a stream stand for. -/
def commandsOf (stream : List Byte) : List Nat :=
  (commandLines stream).filterMap fun line => (atParseCmd line).command

/-- As long as its turns are clean, the parser hands on the command lines of
the stream, in order and whole, and executes their commands and no others;
once everything is read it has handed on all of them. -/
theorem handed_along (cells : Buffer Byte n) (supply : List Delivery)
    (queue : AtQueue n)
    (init : atQueueInit (some cells) (some supply) = some queue)
    (fits : ∀ delivery ∈ supply, delivery.bytes.length ≤ n)
    (echoes : List Bool)
    (clean : Along atParseTurn CleanTurn (atParseStart queue) echoes) :
    Always atParseTurn
        (fun parser => parser.outside = false ∧
          parser.handed <+: commandLines (streamOf supply) ∧
          parser.executed <+: commandsOf (streamOf supply))
        (atParseStart queue) echoes ∧
      ((streamOf supply).length + supply.length ≤ echoes.length →
        (run atParseTurn (atParseStart queue) echoes).handed =
            commandLines (streamOf supply) ∧
          (run atParseTurn (atParseStart queue) echoes).executed =
            commandsOf (streamOf supply)) := by
  have start := framed_start cells supply queue init fits
  constructor
  · rintro seen ⟨rest, split⟩
    rw [← split, along_append] at clean
    obtain ⟨later, framed, _⟩ := framed_run _ _ _ seen start clean.1
    have handed := framed_prefix _ _ _ framed
    refine ⟨framed.inside, handed, ?_⟩
    rw [executed_eq]
    exact handed.filterMap _
  · intro enough
    obtain ⟨later, framed, work⟩ := framed_run _ _ _ echoes start clean
    have all : ({ ready := [], coming := supply } : Reader).work =
        (streamOf supply).length + supply.length := rfl
    have handed := framed_done _ _ _ framed (by omega)
    refine ⟨handed, ?_⟩
    rw [executed_eq, handed]
    rfl

def cutSupply : List Delivery :=
  [ { bytes := [0x41#8, 0x54#8, AT_CR], winbuf := by decide },
    { bytes := [AT_LF], winbuf := by decide } ]

theorem cutSupply_handed :
    (run atParseTurn
        (atParseStart
          { ring := Ring.start (Buffer.fill 3 0), qcnt := 0,
            callback := some cutSupply })
        (List.replicate 6 true)).handed =
      commandLines (streamOf cutSupply) := by
  refine ((handed_along (Buffer.fill 3 0) cutSupply _ rfl (by decide)
    (List.replicate 6 true) ?_).2 (by decide)).1
  exact ⟨by decide, by decide, by decide, by decide, by decide, by decide,
    trivial⟩

def longSupply : List Delivery :=
  List.replicate 32
      { bytes := List.replicate 32 0x41#8, winbuf := Nat.le_of_ble_eq_true rfl } ++
    [{ bytes := [0x41#8, 0x41#8, 0x54#8, AT_LF]
       winbuf := Nat.le_of_ble_eq_true rfl }]

/-- The end of a line that does not fit is executed as a command. -/
theorem longLine_executed :
    let parser := run atParseTurn
      (atParseStart
        { ring := Ring.start (Buffer.fill 32 0), qcnt := 0,
          callback := some longSupply })
      (List.replicate 1061 false)
    streamOf longSupply =
        List.replicate 1025 0x41#8 ++ [0x41#8, 0x54#8, AT_LF] ∧
      parser.queue.unread = [] ∧
      commandLines (streamOf longSupply) = [] ∧
      parser.handed = [[0x41#8, 0x54#8]] ∧ parser.executed = [0] := by
  decide +kernel

end XR872.AtCmd
