/-
The message digest of a data frame, as the hash driver computes it.

The three parts are appended one after the other. The driver takes no empty
part, and where a part finds bytes waiting and does not complete their word, the
engine hashes other bytes than were appended.
-/

import XR872.Crypto.HashPadding

namespace XR872.Efpg

open BitView
open Blocks
open Crypto
open Runs

/-- `HAL_SHA256_Append`; `none` stands for every result but `HAL_OK`. -/
def sha256Append (session : CeSession) (data : List Byte) : Option CeSession :=
  match halSha256Append session.hdl data with
  | (.ok, words, hdl) =>
      some
        { hdl := hdl
          fifo := session.fifo ++ words
          appended := session.appended ++ data }
  | _ => none

/-- The bytes that `HAL_SHA256_Finish` finds in the engine and in the handler
after these appends, which `padded_finish` has it pad and hash. -/
def hashedMessage (parts : List (List Byte)) : Option (List Byte) :=
  (parts.foldlM sha256Append (CeSession.start .zero)).map CeSession.held

theorem sha256Append_nil (session : CeSession) :
    sha256Append session [] = none := rfl

theorem sha256Append_chunk (session : CeSession) (chunk : CeChunk) :
    sha256Append session chunk.data = some (session.step .sha256 chunk) := by
  have some : chunk.data.length ≠ 0 := fun none =>
    chunk.nonempty (List.eq_nil_of_length_eq_zero none)
  have appended : halSha256Append session.hdl chunk.data =
      (.ok, (halCrcHashConvey session.hdl.align chunk.data).1,
        { totalSize :=
            session.hdl.totalSize + BitVec.ofNat 64 chunk.data.length
          align := (halCrcHashConvey session.hdl.align chunk.data).2 }) := by
    change append session.hdl chunk.data = _
    unfold append
    rw [if_neg some]
  unfold sha256Append
  rw [appended, step_eq]

theorem nonempty_of_hashedMessage {parts : List (List Byte)}
    {message : List Byte} (hashed : hashedMessage parts = some message) :
    ∀ part ∈ parts, part ≠ [] := by
  unfold hashedMessage at hashed
  generalize CeSession.start .zero = session at hashed
  induction parts generalizing session with
  | nil => exact fun part member => absurd member (List.not_mem_nil)
  | cons first rest ih =>
      rw [List.foldlM_cons] at hashed
      cases appended : sha256Append session first with
      | none =>
          rw [appended] at hashed
          cases hashed
      | some next =>
          rw [appended] at hashed
          intro part member
          rcases List.mem_cons.mp member with rfl | later
          · intro empty
            rw [empty, sha256Append_nil] at appended
            cases appended
          · exact ih next hashed part later

theorem foldlM_sha256Append (chunks : List CeChunk) (session : CeSession) :
    (chunks.map CeChunk.data).foldlM sha256Append session =
      some (run (CeSession.step .sha256) session chunks) := by
  induction chunks generalizing session with
  | nil => rfl
  | cons chunk rest ih =>
      rw [List.map_cons, List.foldlM_cons, sha256Append_chunk, run_cons]
      exact ih _

/-- Where no part overwrites bytes that wait, the message is the parts put
together. -/
theorem hashedMessage_of_completes (chunks : List CeChunk)
    (completes : Along (CeSession.step .sha256) Completes
      (CeSession.start .zero) chunks) :
    hashedMessage (chunks.map CeChunk.data) =
      some (chunks.map CeChunk.data).flatten := by
  have packs := (packs_run_iff .sha256 chunks _ counts_start tidy_start).mpr
    completes
  have appended := appended_run .sha256 chunks (CeSession.start .zero)
  unfold hashedMessage
  rw [foldlM_sha256Append]
  change some (CeSession.held _) = _
  rw [held_of_packs _ packs, appended]
  rfl

/-- A byte that does not complete the word of the one before takes its place. -/
example : hashedMessage [[0xFF], [0x5A]] = some [0x5A, 0x00] := by decide

/-- Parts of whole words leave nothing waiting, so every one of them is hashed
as it is, and so is a last one of any length. -/
theorem completes_of_words (chunks : List CeChunk) (session : CeSession)
    (whole : session.appended.length % 4 = 0)
    (words : ∀ chunk ∈ chunks.dropLast, chunk.data.length % 4 = 0) :
    Along (CeSession.step .sha256) Completes session chunks := by
  induction chunks generalizing session with
  | nil => trivial
  | cons chunk rest ih =>
      have nothing : Blocks.rest 4 session.appended = [] := by
        apply List.eq_nil_of_length_eq_zero
        rw [length_rest, whole]
      refine ⟨?_, ?_⟩
      · intro first waits
        rw [nothing] at waits
        cases waits
      · cases rest with
        | nil => trivial
        | cons next later =>
            refine ih _ ?_ ?_
            · rw [step_eq]
              have filled := words chunk (List.mem_cons_self ..)
              rw [List.length_append]
              omega
            · intro other member
              exact words other (List.mem_cons_of_mem _ member)

end XR872.Efpg
