/-
What the receive interrupt can do next.

One constructor for each way through a turn of its loops. The end of a line is
seen apart from what the handler finds behind a `\r`.
-/

import XR872.Console.Turns

namespace XR872.Console

open BitView
open Runs
open Memories

namespace ConsolePriv

/-- How many bytes of a line the handler has. -/
def count (c : ConsolePriv) : Nat :=
  match c.rx with
  | some (.loop _ cnt) => cnt
  | _ => c.rxDataCnt

/-- The begun line. -/
def line (c : ConsolePriv) : List Byte :=
  load c.memory (consoleBuf c.rxBufIdx) c.count

def InLoop (c : ConsolePriv) : Prop :=
  ∃ rxBuf cnt, c.rx = some (.loop rxBuf cnt)

theorem count_of_not_inLoop (c : ConsolePriv) (outside : ¬ c.InLoop) :
    c.count = c.rxDataCnt := by
  unfold count
  split
  · next rxBuf cnt inside => exact absurd ⟨rxBuf, cnt, inside⟩ outside
  · rfl

theorem count_of_loop (c : ConsolePriv) {rxBuf cnt : Nat}
    (inside : c.rx = some (.loop rxBuf cnt)) : c.count = cnt := by
  unfold count
  rw [inside]

/-- A byte that the handler reads. -/
def take (c : ConsolePriv) (data : Byte) (rxData : Option Byte)
    (fifo : List Byte) : ConsolePriv :=
  { c with rxData := rxData, fifo := fifo, taken := c.taken ++ [data] }

inductive RxMove (c : ConsolePriv) : ConsolePriv → Prop where
  | idle (outside : c.rx = none) : RxMove c c
  | begin_ (at_ : c.rx = some .restart) (filling : c.rxBufIdx ≠ 2) :
      RxMove c c.retry
  | noBuf (at_ : c.rx = some .restart) (without : c.rxBufIdx = 2) :
      RxMove c { c with rx := some .discard }
  | tooLong {rxBuf cnt : Nat} (at_ : c.rx = some (.loop rxBuf cnt))
      (full : ¬ cnt < 256) : RxMove c { c with rxDataCnt := 0 }.retry
  | noMore {rxBuf cnt : Nat} (at_ : c.rx = some (.loop rxBuf cnt))
      (short : cnt < 256) (empty : c.nextRx = none) :
      RxMove c { c with rxDataCnt := cnt, rx := none }
  | char {rxBuf cnt : Nat} (at_ : c.rx = some (.loop rxBuf cnt))
      (short : cnt < 256) {data : Byte} {rxData : Option Byte}
      {fifo : List Byte} (next : c.nextRx = some (data, rxData, fifo))
      (notLf : data ≠ lf) (notCr : data ≠ cr) (valid : isprint data = true) :
      RxMove c { (c.take data rxData fifo).storeRx rxBuf data with
        rx := some (.loop (rxBuf + 1) (cnt + 1)) }
  | illegal {rxBuf cnt : Nat} (at_ : c.rx = some (.loop rxBuf cnt))
      (short : cnt < 256) {data : Byte} {rxData : Option Byte}
      {fifo : List Byte} (next : c.nextRx = some (data, rxData, fifo))
      (notLf : data ≠ lf) (notCr : data ≠ cr) (invalid : isprint data = false) :
      RxMove c { c.take data rxData fifo with rxDataCnt := 0 }.retry
  | endLf {rxBuf cnt : Nat} (at_ : c.rx = some (.loop rxBuf cnt))
      (short : cnt < 256) {rxData : Option Byte} {fifo : List Byte}
      (next : c.nextRx = some (lf, rxData, fifo)) :
      RxMove c
        (({ c.take lf rxData fifo with rx := none }).storeRx rxBuf
          0).consoleRxCmdline
  | endCr {rxBuf cnt : Nat} (at_ : c.rx = some (.loop rxBuf cnt))
      (short : cnt < 256) {rxData : Option Byte}
      (next : c.nextRx = some (cr, rxData, [])) :
      RxMove c
        (({ c.take cr rxData [] with rx := none }).storeRx rxBuf
          0).consoleRxCmdline
  | endCrLf {rxBuf cnt : Nat} (at_ : c.rx = some (.loop rxBuf cnt))
      (short : cnt < 256) {rxData : Option Byte} {rest : List Byte}
      (next : c.nextRx = some (cr, rxData, lf :: rest)) :
      RxMove c
        (({ (c.take cr rxData (lf :: rest)).take lf rxData rest with
          rx := none }).storeRx rxBuf 0).consoleRxCmdline
  | endCrOther {rxBuf cnt : Nat} (at_ : c.rx = some (.loop rxBuf cnt))
      (short : cnt < 256) {rxData : Option Byte} {other : Byte}
      {rest : List Byte} (next : c.nextRx = some (cr, rxData, other :: rest))
      (notLf : other ≠ lf) :
      RxMove c
        (({ c.take cr (some other) rest with
          rx := some .restart }).storeRx rxBuf 0).consoleRxCmdline
  | discarded (at_ : c.rx = some .discard) (empty : c.nextRx = none) :
      RxMove c { c with rx := none }
  | discards (at_ : c.rx = some .discard) {data : Byte}
      {rxData : Option Byte} {fifo : List Byte}
      (next : c.nextRx = some (data, rxData, fifo)) :
      RxMove c { c with
        rxData := rxData, fifo := fifo, discarded := c.discarded ++ [data] }

theorem lookBehindCr_cases (c : ConsolePriv) :
    (c.fifo = [] ∧ c.lookBehindCr = { c with rx := none }) ∨
      (∃ rest, c.fifo = lf :: rest ∧ c.lookBehindCr =
        { c with fifo := rest, taken := c.taken ++ [lf], rx := none }) ∨
      ∃ other rest, c.fifo = other :: rest ∧ other ≠ lf ∧ c.lookBehindCr =
        { c with fifo := rest, rxData := some other, rx := some .restart } := by
  unfold lookBehindCr
  cases c.fifo with
  | nil => exact .inl ⟨rfl, rfl⟩
  | cons next rest =>
      by_cases feed : next = lf
      · rw [feed]
        exact .inr (.inl ⟨rest, rfl, rfl⟩)
      · exact .inr (.inr ⟨next, rest, rfl, feed, if_neg feed⟩)

theorem rxMove_loop (c : ConsolePriv) {rxBuf cnt : Nat}
    (at_ : c.rx = some (.loop rxBuf cnt)) :
    RxMove c (c.rxLoop rxBuf cnt) := by
  unfold rxLoop
  by_cases short : cnt < consoleCmdLineMaxLen
  · rw [if_pos short]
    split
    · next empty => exact .noMore at_ short empty
    · next data rxData fifo next =>
        change RxMove c (if data = lf ∨ data = cr then
          (c.take data rxData fifo).endLine rxBuf data
          else if isprint data then
            { (c.take data rxData fifo).storeRx rxBuf data with
              rx := some (.loop (rxBuf + 1) (cnt + 1)) }
          else { c.take data rxData fifo with rxDataCnt := 0 }.retry)
        by_cases feed : data = lf
        · subst feed
          exact .endLf at_ short next
        · by_cases carriage : data = cr
          · subst carriage
            rw [if_pos (.inr rfl)]
            unfold endLine
            rw [if_pos rfl]
            rcases lookBehindCr_cases (c.take cr rxData fifo) with
              ⟨empty, eq⟩ | ⟨rest, split, eq⟩ | ⟨other, rest, split, notLf, eq⟩
            · rw [eq]
              have empty : fifo = [] := empty
              subst empty
              exact .endCr at_ short next
            · rw [eq]
              have split : fifo = lf :: rest := split
              subst split
              exact .endCrLf at_ short next
            · rw [eq]
              have split : fifo = other :: rest := split
              subst split
              exact .endCrOther at_ short next notLf
          · rw [if_neg (not_or.mpr ⟨feed, carriage⟩)]
            by_cases valid : isprint data = true
            · rw [if_pos valid]
              exact .char at_ short next feed carriage valid
            · rw [if_neg valid]
              exact .illegal at_ short next feed carriage
                (Bool.eq_false_iff.mpr valid)
  · rw [if_neg short]
    exact .tooLong at_ short

theorem rxMove (c : ConsolePriv) : RxMove c c.rxStep := by
  unfold rxStep
  split
  · next outside => exact .idle outside
  · next at_ =>
      by_cases filling : c.rxBufIdx ≠ consoleInvalidBufIdx
      · rw [if_pos filling]
        exact .begin_ at_ filling
      · rw [if_neg filling]
        exact .noBuf at_ (not_not.mp filling)
  · next rxBuf cnt at_ => exact rxMove_loop c at_
  · next at_ =>
      split
      · next empty => exact .discarded at_ empty
      · next data rxData fifo next => exact .discards at_ next

end ConsolePriv

end XR872.Console
