/-
Transfers between the system bus and the memory chip.

A burst that runs over the end of a page wraps to the beginning of that page, so
a transfer is made of requests that each stay on one page.
-/

import XR872.Library.BitView
import XR872.Library.Pages

namespace XR872.Psram

open BitView
open Pages

/-- `PSRAM_CHIP_xxx`. -/
inductive PsramChipType where
  | sqpi
  | opiAps32
  | opiAps64
  | other
deriving DecidableEq, Repr

structure PsramChip where
  type : PsramChipType
  sbusRcmd : Byte
  sbusWcmd : Byte
  wrapLen : BitVec 32
deriving DecidableEq, Repr

def psramDataWriteByte : BitVec 32 := 1 <<< 0
def psramDataReadByte : BitVec 32 := 1 <<< 4

/-- `struct psram_request`, the buffer as its distance from the caller's. -/
structure PsramRequest where
  opcode : Byte
  flags : BitVec 32
  blksz : Nat
  addr : Nat
  blocks : Nat
  buff : Nat
deriving DecidableEq, Repr

section

variable (answer : Nat → Int)

/-- The loop over whole pages and the rest behind it, from the request of a
number on: what is returned and the requests made. -/
def transferPages (mrq : PsramRequest) (pageSize turn startAddr buf
    dataLen : Nat) : Int × List PsramRequest :=
  if dataLen / pageSize ≠ 0 then
    let mrq := { mrq with addr := startAddr, blocks := pageSize, buff := buf }
    if answer turn ≠ 0 then (-1, [mrq])
    else
      let rest := transferPages mrq pageSize (turn + 1)
        ((startAddr + pageSize) % 2 ^ 32) (buf + pageSize)
        (dataLen - pageSize)
      (rest.1, mrq :: rest.2)
  else if dataLen ≠ 0 then
    let mrq := { mrq with addr := startAddr, blocks := dataLen, buff := buf }
    if answer turn ≠ 0 then (-1, [mrq]) else (0, [mrq])
  else (0, [])
termination_by dataLen
decreasing_by
  have whole := Nat.div_ne_zero_iff.mp ‹dataLen / pageSize ≠ 0›
  omega

/-- What all requests of a transfer have in common. -/
def transferRequest (chip : PsramChip) (write : Bool) : PsramRequest where
  opcode := if write then chip.sbusWcmd else chip.sbusRcmd
  flags := if write then psramDataWriteByte else psramDataReadByte
  blksz := 1
  addr := 0
  blocks := 0
  buff := 0

/-- `psram_sbus_transfer`: `answer` has what `HAL_PsramCtrl_Sbus_Transfer`
returns for each request. -/
def psramSbusTransfer (chip : PsramChip) (write : Bool)
    (addr len pageSize : BitVec 32) : Int × List PsramRequest :=
  let padding := addr.toNat % pageSize.toNat
  let wLen := pageSize.toNat - padding
  let mrq := transferRequest chip write
  if padding ≠ 0 ∧ wLen < len.toNat then
    let mrq := { mrq with addr := addr.toNat, blocks := wLen, buff := 0 }
    if answer 0 ≠ 0 then (-1, [mrq])
    else
      let rest := transferPages answer mrq pageSize.toNat 1
        ((addr.toNat + wLen) % 2 ^ 32) wLen (len.toNat - wLen)
      (rest.1, mrq :: rest.2)
  else transferPages answer mrq pageSize.toNat 0 addr.toNat 0 len.toNat

/-- `psram_sbus_read` and the others: what each sets up before the transfer is
left out. -/
def psramSbus (write : Bool) (chip : PsramChip) (addr : BitVec 32)
    (buf : Bool) (len : BitVec 32) : Int × List PsramRequest :=
  if ¬ buf ∨ len = 0 then (-1, [])
  else
    match chip.type with
    | .sqpi => psramSbusTransfer answer chip write addr len chip.wrapLen
    | .opiAps32 => psramSbusTransfer answer chip write addr len chip.wrapLen
    | .opiAps64 => psramSbusTransfer answer chip write addr len chip.wrapLen
    | .other => (-1, [])

def psramSbusRead := psramSbus answer false
def psramSbusWrite := psramSbus answer true
def psramSbusDmaRead := psramSbus answer false
def psramSbusDmaWrite := psramSbus answer true

end

/-- The addresses of a request. -/
def PsramRequest.range (mrq : PsramRequest) : Nat × Nat := (mrq.addr, mrq.blocks)

/-- What a transfer keeps, from what is returned and the requests made. -/
structure SplitPromise (answer : Nat → Int) (addr len pageSize : Nat)
    (result : Int × List PsramRequest) : Prop where
  consecutive : ∃ stop ≤ addr + len,
    Tiles addr (result.2.map PsramRequest.range) stop
  buffer : ∀ mrq ∈ result.2, mrq.addr = addr + mrq.buff
  onePage : ∀ mrq ∈ result.2, OnePage pageSize mrq.range
  done : result.1 = 0 →
    Tiles addr (result.2.map PsramRequest.range) (addr + len)
  failed : ∀ turn < result.2.length, answer turn ≠ 0 →
    result.1 = -1 ∧ turn + 1 = result.2.length
  succeeded : (∀ turn < result.2.length, answer turn = 0) → result.1 = 0

/-! ### Requests until one fails -/

section

variable (answer : Nat → Int)

def issue : Nat → List PsramRequest → Int × List PsramRequest
  | _, [] => (0, [])
  | turn, mrq :: rest =>
      if answer turn ≠ 0 then (-1, [mrq])
      else ((issue (turn + 1) rest).1, mrq :: (issue (turn + 1) rest).2)

theorem issue_take (turn : Nat) (requests : List PsramRequest) :
    ∃ count, (issue answer turn requests).2 = requests.take count ∧
      ((issue answer turn requests).1 = 0 → count = requests.length) := by
  induction requests generalizing turn with
  | nil => exact ⟨0, rfl, fun _ => rfl⟩
  | cons mrq rest ih =>
      rw [issue]
      by_cases fails : answer turn ≠ 0
      · rw [if_pos fails]
        exact ⟨1, rfl, fun zero => absurd zero (Int.negSucc_ne_zero 0)⟩
      · rw [if_neg fails]
        obtain ⟨count, made, all⟩ := ih (turn + 1)
        refine ⟨count + 1, ?_, fun zero => congrArg (· + 1) (all zero)⟩
        rw [List.take_succ_cons, ← made]

theorem issue_failed (turn : Nat) (requests : List PsramRequest) :
    ∀ index < (issue answer turn requests).2.length, answer (turn + index) ≠ 0 →
      (issue answer turn requests).1 = -1 ∧
        index + 1 = (issue answer turn requests).2.length := by
  induction requests generalizing turn with
  | nil => exact fun index none => absurd none (Nat.not_lt_zero index)
  | cons mrq rest ih =>
      intro index made fails
      rw [issue] at made ⊢
      by_cases failsHere : answer turn ≠ 0
      · rw [if_pos failsHere] at made ⊢
        exact ⟨rfl, congrArg (· + 1) (Nat.lt_one_iff.mp made)⟩
      · rw [if_neg failsHere] at made ⊢
        cases index with
        | zero => exact absurd fails failsHere
        | succ index =>
            have later := ih (turn + 1) index (Nat.lt_of_succ_lt_succ made)
              (by rwa [Nat.add_assoc, Nat.add_comm 1])
            exact ⟨later.1, congrArg (· + 1) later.2⟩

theorem issue_succeeded (turn : Nat) (requests : List PsramRequest)
    (all : ∀ index < (issue answer turn requests).2.length,
      answer (turn + index) = 0) : (issue answer turn requests).1 = 0 := by
  induction requests generalizing turn with
  | nil => rfl
  | cons mrq rest ih =>
      rw [issue] at all ⊢
      by_cases fails : answer turn ≠ 0
      · rw [if_pos fails] at all
        exact absurd (all 0 Nat.one_pos) fails
      · rw [if_neg fails] at all ⊢
        apply ih (turn + 1)
        intro index made
        rw [Nat.add_assoc, Nat.add_comm 1]
        exact all (index + 1) (Nat.succ_lt_succ made)

end

/-! ### The requests are those of the pages -/

/-- The request for a piece of a transfer that begins at an address. -/
def pieceRequest (mrq : PsramRequest) (start : Nat) (piece : Nat × Nat) :
    PsramRequest :=
  { mrq with addr := piece.1, blocks := piece.2, buff := piece.1 - start }

section

variable (answer : Nat → Int) {pageSize : Nat} (paged : 0 < pageSize)

include paged

theorem transferPages_issue (start : Nat) (mrq : PsramRequest)
    (turn address dataLen : Nat) (behind : start ≤ address)
    (inside : address + dataLen ≤ 2 ^ 32)
    (fits : address % pageSize = 0 ∨ address % pageSize + dataLen ≤ pageSize) :
    transferPages answer mrq pageSize turn (address % 2 ^ 32) (address - start)
        dataLen =
      issue answer turn
        ((pages pageSize address dataLen).map (pieceRequest mrq start)) := by
  induction dataLen using Nat.strong_induction_on generalizing mrq turn
    address with
  | h dataLen ih =>
      rcases Nat.eq_zero_or_pos dataLen with rfl | some
      · rw [pages_none, transferPages, if_neg (by simp), if_neg (by simp)]
        rfl
      · have here : address % 2 ^ 32 = address :=
          Nat.mod_eq_of_lt (by omega)
        rw [pages_some paged address some, List.map_cons, issue, transferPages,
          here]
        by_cases whole : dataLen / pageSize ≠ 0
        · -- a whole page is left, so the address is the first of its page
          have long := (Nat.div_ne_zero_iff.mp whole).2
          have piece : min dataLen (pageSize - address % pageSize) = pageSize := by
            omega
          rw [if_pos whole, piece]
          have next := ih (dataLen - pageSize) (by omega)
            (pieceRequest mrq start (address, pageSize)) (turn + 1)
            (address + pageSize) (by omega) (by omega)
            (.inl (by rw [Nat.add_mod_right]; omega))
          have buffer : address + pageSize - start =
              address - start + pageSize := by
            omega
          rw [buffer] at next
          change (if answer turn ≠ 0 then _ else
            ((transferPages answer (pieceRequest mrq start (address, pageSize))
              _ _ _ _ _).1, _ :: (transferPages answer
                (pieceRequest mrq start (address, pageSize)) _ _ _ _ _).2)) = _
          rw [next]
          rfl
        · have short : dataLen < pageSize := by
            by_contra long
            exact whole (Nat.div_ne_zero_iff.mpr
              ⟨Nat.pos_iff_ne_zero.mp paged, Nat.le_of_not_lt long⟩)
          have piece : min dataLen (pageSize - address % pageSize) = dataLen := by
            have room := Nat.mod_lt address paged
            omega
          rw [if_neg whole, if_pos (Nat.pos_iff_ne_zero.mp some), piece,
            Nat.sub_self, pages_none]
          rfl

/-- The requests of a transfer are those of the pages of its range, up to the
first that fails. -/
theorem psramSbusTransfer_issue (chip : PsramChip) (write : Bool)
    (addr len size : BitVec 32) (same : size.toNat = pageSize)
    (inside : addr.toNat + len.toNat ≤ 2 ^ 32) :
    psramSbusTransfer answer chip write addr len size =
      issue answer 0 ((pages pageSize addr.toNat len.toNat).map
        (pieceRequest (transferRequest chip write) addr.toNat)) := by
  unfold psramSbusTransfer
  rw [same]
  dsimp only
  generalize transferRequest chip write = mrq
  have room := Nat.mod_lt addr.toNat paged
  by_cases head : addr.toNat % pageSize ≠ 0 ∧
      pageSize - addr.toNat % pageSize < len.toNat
  · rw [if_pos head, pages_some paged _ (by omega), List.map_cons, issue,
      Nat.min_eq_right (Nat.le_of_lt head.2)]
    have start := Nat.div_add_mod addr.toNat pageSize
    have aligned : (addr.toNat + (pageSize - addr.toNat % pageSize)) %
        pageSize = 0 := by
      have next : addr.toNat + (pageSize - addr.toNat % pageSize) =
          pageSize * (addr.toNat / pageSize + 1) := by
        rw [Nat.mul_succ]
        omega
      rw [next, Nat.mul_mod_right]
    have rest := transferPages_issue answer paged addr.toNat
      (pieceRequest mrq addr.toNat
        (addr.toNat, pageSize - addr.toNat % pageSize)) 1
      (addr.toNat + (pageSize - addr.toNat % pageSize))
      (len.toNat - (pageSize - addr.toNat % pageSize)) (by omega) (by omega)
      (.inl aligned)
    rw [Nat.add_sub_cancel_left] at rest
    have first : pieceRequest mrq addr.toNat
        (addr.toNat, pageSize - addr.toNat % pageSize) =
        { mrq with addr := addr.toNat, blocks := pageSize - addr.toNat % pageSize,
                   buff := 0 } := by
      rw [pieceRequest]
      dsimp only
      rw [Nat.sub_self]
    rw [first] at rest ⊢
    rw [rest]
    rfl
  · rw [if_neg head]
    have whole := transferPages_issue answer paged addr.toNat mrq 0 addr.toNat
      len.toNat (Nat.le_refl _) inside (by omega)
    rwa [Nat.mod_eq_of_lt addr.isLt, Nat.sub_self] at whole

end

theorem issue_splitPromise (answer : Nat → Int) (mrq : PsramRequest)
    {addr len pageSize : Nat} (paged : 0 < pageSize) :
    SplitPromise answer addr len pageSize
      (issue answer 0 ((pages pageSize addr len).map
        (pieceRequest mrq addr))) := by
  have tiles := tiles_pages paged addr len
  have ranges : ∀ pieces : List (Nat × Nat), (pieces.map (pieceRequest mrq addr)).map
      PsramRequest.range = pieces := by
    intro pieces
    rw [List.map_map]
    exact List.map_id pieces
  obtain ⟨count, made, all⟩ := issue_take answer 0
    ((pages pageSize addr len).map (pieceRequest mrq addr))
  rw [← List.map_take] at made
  have piece : ∀ request ∈ ((pages pageSize addr len).take count).map
      (pieceRequest mrq addr), ∃ piece ∈ pages pageSize addr len,
        request = pieceRequest mrq addr piece := by
    intro request there
    obtain ⟨piece, front, rfl⟩ := List.mem_map.mp there
    exact ⟨piece, List.mem_of_mem_take front, rfl⟩
  refine ⟨?_, ?_, ?_, ?_, ?_, ?_⟩
  · rw [made, ranges]
    exact tiles.take count
  · intro request there
    rw [made] at there
    obtain ⟨piece, member, rfl⟩ := piece request there
    exact (Nat.add_sub_of_le (tiles.start_le piece member)).symm
  · intro request there
    rw [made] at there
    obtain ⟨piece, member, rfl⟩ := piece request there
    exact onePage_pages paged addr len piece member
  · intro zero
    rw [made, ranges, all zero, List.length_map, List.take_length]
    exact tiles
  · intro turn there fails
    exact issue_failed answer 0 _ turn there (by rwa [Nat.zero_add])
  · intro noneFails
    apply issue_succeeded
    intro turn there
    rw [Nat.zero_add]
    exact noneFails turn there

theorem psramSbus_onePage (answer : Nat → Int) (write : Bool)
    (chip : PsramChip) (addr : BitVec 32) (buf : Bool) (len : BitVec 32)
    (inside : addr.toNat + len.toNat ≤ 2 ^ 32) (paged : 0 < chip.wrapLen.toNat) :
    ∀ mrq ∈ (psramSbus answer write chip addr buf len).2,
      OnePage chip.wrapLen.toNat mrq.range := by
  have transfer := @issue_splitPromise answer (transferRequest chip write)
    addr.toNat len.toNat _ paged
  rw [← psramSbusTransfer_issue answer paged chip write addr len _ rfl inside]
    at transfer
  unfold psramSbus
  split
  · exact fun mrq there => absurd there List.not_mem_nil
  · cases chip.type with
    | sqpi => exact transfer.onePage
    | opiAps32 => exact transfer.onePage
    | opiAps64 => exact transfer.onePage
    | other => exact fun mrq there => absurd there List.not_mem_nil

/-- A transfer is made of requests that follow one another and each stay on one
page, from the address on, and returns 0 at the end if none of them fails. -/
theorem psramSbusTransfer_splitPromise (answer : Nat → Int) (chip : PsramChip)
    (write : Bool) (addr len pageSize : BitVec 32)
    (inside : addr.toNat + len.toNat ≤ 2 ^ 32) (paged : 0 < pageSize) :
    SplitPromise answer addr.toNat len.toNat pageSize.toNat
      (psramSbusTransfer answer chip write addr len pageSize) := by
  have positive : 0 < pageSize.toNat := paged
  rw [psramSbusTransfer_issue answer positive chip write addr len pageSize rfl
    inside]
  exact issue_splitPromise answer _ positive

/-- Two whole pages and parts of the pages before and behind them. -/
theorem psramSbusTransfer_four :
    SplitPromise (fun _ => 0) 1000 3000 1024
      (psramSbusTransfer (fun _ => 0)
        { type := .sqpi, sbusRcmd := 0xEB#8, sbusWcmd := 0x38#8,
          wrapLen := 1024#32 }
        true 1000 3000 1024) :=
  psramSbusTransfer_splitPromise (fun _ => 0) _ true 1000 3000 1024
    (by decide) (by decide)

end XR872.Psram
