/-
One port of the SPI driver: what the calls make of its handler, of the registers
of the controller and of the DMA channels.

`HAL_SPI_Open` and `HAL_SPI_Close` run with interrupts disabled. The others are
cut where another task can come in between. What the data of a transfer does to
the FIFOs and their counters is left out.
-/

import XR872.Library.RecursiveMutex
import XR872.Spi.ModuleClock

namespace XR872.Spi

open RecursiveMutexes

variable {τ : Type}

inductive SpiStatus where
  | reset
  | ready
  | busy
  | busyTx
  | busyRx
  | busyTxRx
  | error
deriving DecidableEq, Repr

/-- `BUSY` or a `BUSY_x` value. -/
def SpiStatus.occupied : SpiStatus → Bool
  | .busy | .busyTx | .busyRx | .busyTxRx => true
  | .reset | .ready | .error => false

inductive SpiTransfer where
  | receive
  | transmit
  | transmitReceive
deriving DecidableEq, Repr

/-- The status during the transfer. -/
def SpiTransfer.status : SpiTransfer → SpiStatus
  | .receive => .busyRx
  | .transmit => .busyTx
  | .transmitReceive => .busyTxRx

structure SpiGlobalConfig where
  mclk : BitVec 32
  csLevel : Bool
deriving DecidableEq, Repr

/-- The clocks the controller can run on, and what the two resets make of its
registers. -/
structure SpiBoard where
  hfClock : BitVec 32
  devClock : BitVec 32
  busReset : SpiRegs → SpiRegs
  softReset : SpiRegs → SpiRegs

/-- `SPI_Handler`, `none` standing for a mutex that does not exist and for an
invalid channel; then the controller, and the channels the port was given. -/
structure SpiHandler (τ : Type) where
  status : SpiStatus
  lock : Option (RecursiveMutex τ)
  mclk : BitVec 32
  config : SpiConfig
  txDmaChannel : Option Nat
  rxDmaChannel : Option Nat
  csIdle : Bool
  csUsing : Nat
  regs : SpiRegs
  enabled : Bool
  clocked : Bool
  pins : Option Nat
  channels : List Nat
deriving DecidableEq, Repr

/-- Whether `HAL_SPI_ConfigCCMU` accepts the clock. -/
def SpiBoard.halSpiConfigCcmu (board : SpiBoard) (clk : BitVec 32) : Bool :=
  (Spi.halSpiConfigCcmu board.hfClock board.devClock clk).isSome

namespace SpiHandler

/-! ### Initialization -/

/-- `HAL_SPI_Init` makes the mutex and the semaphore. -/
def halSpiInitCreate (h : SpiHandler τ) (mutex semaphore : Bool) :
    HalStatus × SpiHandler τ :=
  if h.lock.isSome ∨ mutex = false then (.error, h)
  else if semaphore = false then (.error, { h with lock := none })
  else (.ok, { h with lock := some none })

def defaultRegs (h : SpiHandler τ) (regs : SpiRegs) : SpiRegs :=
  { regs with
    mode := h.config.mode
    firstBit := h.config.firstBit
    sclkMode := h.config.sclkMode }

/-- The rest of `HAL_SPI_Init`. -/
def halSpiInitFinish (board : SpiBoard) (h : SpiHandler τ)
    (gconfig : SpiGlobalConfig) : HalStatus × SpiHandler τ :=
  let h := { h with
    mclk := gconfig.mclk
    csIdle := !gconfig.csLevel
    clocked := false
    regs := board.busReset h.regs }
  if board.halSpiConfigCcmu h.mclk then
    (.ok, { h with
      regs := h.defaultRegs (board.softReset h.regs)
      enabled := false
      status := .ready })
  else (.error, { h with lock := none })

/-- `HAL_SPI_Deinit` deletes the mutex. -/
def halSpiDeinitDelete (h : SpiHandler τ) : SpiHandler τ :=
  { h with lock := none }

/-- The rest of `HAL_SPI_Deinit`. -/
def halSpiDeinitFinish (h : SpiHandler τ) : SpiHandler τ :=
  { h with enabled := false, clocked := false, status := .reset }

/-! ### The parts of a call -/

/-- The two `HAL_DMA_Request` of `HAL_SPI_Open`, and whether both gave a
channel. -/
def requestChannels (h : SpiHandler τ) (tx rx : Option Nat) :
    Bool × SpiHandler τ :=
  match tx with
  | none => (false, { h with txDmaChannel := none })
  | some tx =>
      let h := { h with txDmaChannel := some tx, channels := tx :: h.channels }
      match rx with
      | none => (false, { h with
          rxDmaChannel := none
          channels := h.channels.erase tx })
      | some rx => (true, { h with
          rxDmaChannel := some rx
          channels := rx :: h.channels })

def dmaConfig (h : SpiHandler τ) (config : SpiConfig) (tx rx : Option Nat) :
    Bool × SpiHandler τ :=
  match config.opMode with
  | .dma => h.requestChannels tx rx
  | .poll => (true, h)

/-- `HAL_DMA_Release`, nothing for an invalid channel. -/
def dmaRelease (h : SpiHandler τ) (channel : Option Nat) : SpiHandler τ :=
  match channel with
  | none => h
  | some channel => { h with channels := h.channels.erase channel }

/-- The configuration is kept before the clock is found to be possible. -/
def setConfig (h : SpiHandler τ) (config : SpiConfig) :
    HalStatus × SpiHandler τ :=
  if config = h.config then (.ok, h)
  else
    let regs := { h.regs with
      mode := config.mode
      firstBit := config.firstBit
      sclkMode := config.sclkMode }
    let set := spiSetClkDiv regs h.mclk config.sclk
    (set.1, { h with config := config, regs := set.2 })

structure Alike (h h' : SpiHandler τ) : Prop where
  status : h'.status = h.status
  lock : h'.lock = h.lock
  mclk : h'.mclk = h.mclk
  config : h'.config = h.config
  regs : h'.regs = h.regs

theorem dmaConfig_alike (h : SpiHandler τ) (config : SpiConfig)
    (tx rx : Option Nat) : h.Alike (h.dmaConfig config tx rx).2 := by
  unfold dmaConfig
  cases config.opMode with
  | poll => exact ⟨rfl, rfl, rfl, rfl, rfl⟩
  | dma =>
      cases tx with
      | none => exact ⟨rfl, rfl, rfl, rfl, rfl⟩
      | some tx => cases rx <;> exact ⟨rfl, rfl, rfl, rfl, rfl⟩

def Granted (config : SpiConfig) (tx rx : Option Nat) : Prop :=
  config.opMode = .dma → tx.isSome = true ∧ rx.isSome = true

instance (config : SpiConfig) (tx rx : Option Nat) :
    Decidable (Granted config tx rx) :=
  inferInstanceAs (Decidable (_ → _))

theorem dmaConfig_fst (h : SpiHandler τ) (config : SpiConfig)
    (tx rx : Option Nat) :
    (h.dmaConfig config tx rx).1 = true ↔ Granted config tx rx := by
  unfold dmaConfig requestChannels Granted
  cases config.opMode <;> cases tx <;> cases rx <;> simp

theorem dmaRelease_alike (h : SpiHandler τ) (channel : Option Nat) :
    h.Alike (h.dmaRelease channel) := by
  cases channel <;> exact ⟨rfl, rfl, rfl, rfl, rfl⟩

theorem Alike.trans {h h' h'' : SpiHandler τ} (first : h.Alike h')
    (second : h'.Alike h'') : h.Alike h'' where
  status := second.status.trans first.status
  lock := second.lock.trans first.lock
  mclk := second.mclk.trans first.mclk
  config := second.config.trans first.config
  regs := second.regs.trans first.regs

theorem setConfig_config (h : SpiHandler τ) (config : SpiConfig) :
    (h.setConfig config).2.config = config := by
  unfold setConfig
  split_ifs with same
  · exact same.symm
  · rfl

theorem setConfig_keeps (h : SpiHandler τ) (config : SpiConfig) :
    (h.setConfig config).2.status = h.status ∧
      (h.setConfig config).2.lock = h.lock ∧
      (h.setConfig config).2.mclk = h.mclk := by
  unfold setConfig
  split_ifs <;> exact ⟨rfl, rfl, rfl⟩

/-- The registers hold a configuration that was set: one they held already, or
one that the clock allows. -/
def Settable (h : SpiHandler τ) (config : SpiConfig) : Prop :=
  if config = h.config then h.regs.Hold h.mclk config
  else Expressible h.mclk config.sclk

instance (h : SpiHandler τ) (config : SpiConfig) :
    Decidable (h.Settable config) :=
  inferInstanceAs (Decidable (if config = h.config then
    h.regs.Hold h.mclk config else Expressible h.mclk config.sclk))

theorem setConfig_hold (h : SpiHandler τ) (config : SpiConfig) :
    (h.setConfig config).1 = .ok ∧
        (h.setConfig config).2.regs.Hold h.mclk config ↔
      h.Settable config := by
  unfold setConfig Settable
  split_ifs with same
  · exact and_iff_right rfl
  · dsimp only
    rw [← spiSetClkDiv_divides { h.regs with
      mode := config.mode
      firstBit := config.firstBit
      sclkMode := config.sclkMode } h.mclk config.sclk]
    obtain ⟨mode, firstBit, sclkMode⟩ := spiSetClkDiv_keeps { h.regs with
      mode := config.mode
      firstBit := config.firstBit
      sclkMode := config.sclkMode } h.mclk config.sclk
    refine and_congr_right fun _ => ⟨fun hold => hold.2.2.2, fun divides => ?_⟩
    exact ⟨mode, firstBit, sclkMode, divides⟩

/-- A configuration that could not be set is another one than before. -/
theorem config_ne_of_failed (h : SpiHandler τ) (config : SpiConfig)
    (failed : (h.setConfig config).1 ≠ .ok) : config ≠ h.config := by
  intro same
  apply failed
  unfold setConfig
  rw [if_pos same]

/-! ### Sessions -/

variable [DecidableEq τ]

def mutexLock (h : SpiHandler τ) (task : τ) : SpiHandler τ :=
  { h with lock := h.lock.map (RecursiveMutex.lock task) }

def mutexUnlock (h : SpiHandler τ) (task : τ) : SpiHandler τ :=
  { h with lock := h.lock.map (RecursiveMutex.unlock task) }

def lockable (h : SpiHandler τ) (task : τ) : Bool :=
  h.lock.any (RecursiveMutex.available task)

def HeldBy (h : SpiHandler τ) (task : τ) : Prop :=
  h.lock.any (fun mutex => 0 < RecursiveMutex.depth task mutex) = true

instance (h : SpiHandler τ) (task : τ) : Decidable (h.HeldBy task) :=
  inferInstanceAs (Decidable (_ = true))

theorem mutexUnlock_mutexLock (h : SpiHandler τ) (task : τ)
    (lockable : h.lockable task = true) :
    (h.mutexLock task).mutexUnlock task = h := by
  have back : (h.lock.map (RecursiveMutex.lock task)).map
      (RecursiveMutex.unlock task) = h.lock := by
    unfold SpiHandler.lockable at lockable
    cases holds : h.lock with
    | none => rfl
    | some mutex =>
        rw [holds] at lockable
        exact congrArg some (RecursiveMutex.unlock_lock mutex task lockable)
  change ({ h with
    lock := (h.lock.map (RecursiveMutex.lock task)).map
      (RecursiveMutex.unlock task) } : SpiHandler τ) = h
  rw [back]

/-- `init_failed` and what follows it. -/
def initFailed (h : SpiHandler τ) (task : τ) : SpiHandler τ :=
  { h with clocked := false, pins := none, status := .ready }.mutexUnlock task

def occupy (h : SpiHandler τ) (cs : Nat) : SpiHandler τ :=
  { h with status := .busy, csUsing := cs, pins := some cs, clocked := true }

def disable (h : SpiHandler τ) : SpiHandler τ :=
  { h with enabled := false }

/-- `HAL_SPI_Open`: whether the lock was obtained, and what the two requests
for a channel are answered, are inputs. -/
def halSpiOpen (h : SpiHandler τ) (task : τ) (cs : Nat) (config : SpiConfig)
    (locked : Bool) (tx rx : Option Nat) : HalStatus × SpiHandler τ :=
  if locked = false then (.error, h)
  else
    let h := h.mutexLock task
    if h.status ≠ .ready then (.error, h.mutexUnlock task)
    else
      let requested := (h.occupy cs).dmaConfig config tx rx
      if requested.1 = false then
        -- `ret` is what the lock returned
        (.ok, requested.2.initFailed task)
      else
        let set := requested.2.disable.setConfig config
        if set.1 = .ok then (.ok, { set.2 with enabled := true })
        else
          let released :=
            match config.opMode with
            | .dma =>
                (set.2.dmaRelease set.2.rxDmaChannel).dmaRelease
                  set.2.txDmaChannel
            | .poll => set.2
          (set.1, released.initFailed task)

/-- What an open that is not refused comes to: no channel; a session; a
configuration that could not be set. -/
theorem halSpiOpen_cases (h : SpiHandler τ) (task : τ) (cs : Nat)
    (config : SpiConfig) (tx rx : Option Nat) (ready : h.status = .ready) :
    (¬ Granted config tx rx ∧
      (h.halSpiOpen task cs config true tx rx).1 = .ok ∧
      (h.halSpiOpen task cs config true tx rx).2.status = .ready) ∨
    (Granted config tx rx ∧
      (h.halSpiOpen task cs config true tx rx).1 = .ok ∧
      (h.halSpiOpen task cs config true tx rx).2.status = .busy ∧
      (h.halSpiOpen task cs config true tx rx).2.lock =
        h.lock.map (RecursiveMutex.lock task) ∧
      ((h.halSpiOpen task cs config true tx rx).2.regs.Hold
        (h.halSpiOpen task cs config true tx rx).2.mclk config ↔
          h.Settable config)) ∨
    (¬ h.Settable config ∧
      (h.halSpiOpen task cs config true tx rx).1 ≠ .ok ∧
      (h.halSpiOpen task cs config true tx rx).2.status = .ready ∧
      (h.halSpiOpen task cs config true tx rx).2.config ≠ h.config) := by
  unfold halSpiOpen
  rw [if_neg (by decide)]
  dsimp only
  have open_ : ¬ (h.mutexLock task).status ≠ .ready := not_not.mpr ready
  rw [if_neg open_]
  have granted := dmaConfig_fst ((h.mutexLock task).occupy cs) config tx rx
  have alike := dmaConfig_alike ((h.mutexLock task).occupy cs) config tx rx
  generalize ((h.mutexLock task).occupy cs).dmaConfig config tx rx =
    requested at granted alike ⊢
  by_cases answered : requested.1 = false
  · refine .inl ⟨fun all => ?_, ?_⟩
    · rw [granted.mpr all] at answered
      cases answered
    · rw [if_pos answered]
      exact ⟨rfl, rfl⟩
  · rw [if_neg answered]
    have settable : requested.2.disable.Settable config ↔
        h.Settable config := by
      change (if config = requested.2.config then
        requested.2.regs.Hold requested.2.mclk config
        else Expressible requested.2.mclk config.sclk) ↔ _
      rw [alike.config, alike.regs, alike.mclk]
      rfl
    have hold := setConfig_hold requested.2.disable config
    obtain ⟨status, lock, mclk⟩ :=
      setConfig_keeps requested.2.disable config
    have failed := config_ne_of_failed requested.2.disable config
    have kept := setConfig_config requested.2.disable config
    generalize requested.2.disable.setConfig config = set at hold status lock mclk failed kept ⊢
    by_cases ok : set.1 = .ok
    · rw [if_pos ok]
      refine .inr (.inl ⟨?_, rfl, ?_, ?_, ?_⟩)
      · exact granted.mp (Bool.not_eq_false _ |>.mp answered)
      · exact status.trans alike.status
      · exact lock.trans alike.lock
      · rw [← settable, ← hold, and_iff_right ok]
        change set.2.regs.Hold set.2.mclk config ↔ _
        rw [mclk]
    · rw [if_neg ok]
      refine .inr (.inr ⟨?_, ok, rfl, ?_⟩)
      · rw [← settable, ← hold]
        exact fun both => ok both.1
      · have other : config ≠ h.config := fun same =>
          failed ok (same.trans alike.config.symm)
        cases config.opMode with
        | poll => exact fun same => other (kept.symm.trans same)
        | dma =>
            have released :=
              (dmaRelease_alike set.2 set.2.rxDmaChannel).trans
                (dmaRelease_alike _ set.2.txDmaChannel)
            exact fun same =>
              other (kept.symm.trans (released.config.symm.trans same))

theorem halSpiOpen_refused (h : SpiHandler τ) (task : τ) (cs : Nat)
    (config : SpiConfig) (locked : Bool) (tx rx : Option Nat)
    (possible : locked = true → h.lockable task = true)
    (refused : locked = true → h.status ≠ .ready) :
    h.halSpiOpen task cs config locked tx rx = (.error, h) := by
  cases locked with
  | false => rfl
  | true =>
      unfold halSpiOpen
      rw [if_neg (by decide)]
      dsimp only
      have busy : (h.mutexLock task).status ≠ .ready := refused rfl
      rw [if_pos busy, mutexUnlock_mutexLock h task (possible rfl)]

def halSpiClose (h : SpiHandler τ) (task : τ) : HalStatus × SpiHandler τ :=
  if h.status ≠ .busy then (.error, h)
  else
    let released :=
      match h.config.opMode with
      | .dma => (h.dmaRelease h.txDmaChannel).dmaRelease h.rxDmaChannel
      | .poll => h
    (.ok,
      { released with
        status := .ready
        pins := none
        enabled := false
        clocked := false }.mutexUnlock task)

theorem halSpiClose_busy (h : SpiHandler τ) (task : τ)
    (busy : h.status = .busy) :
    (h.halSpiClose task).1 = .ok ∧
      (h.halSpiClose task).2.status = .ready ∧
      (h.halSpiClose task).2.lock =
        h.lock.map (RecursiveMutex.unlock task) := by
  unfold halSpiClose
  rw [if_neg (not_not.mpr busy)]
  refine ⟨rfl, rfl, ?_⟩
  cases h.config.opMode with
  | poll => rfl
  | dma =>
      have released :=
        (dmaRelease_alike h h.txDmaChannel).trans
          (dmaRelease_alike _ h.rxDmaChannel)
      exact congrArg (Option.map (RecursiveMutex.unlock task)) released.lock

/-- A transfer until it leaves the critical section, and whether it goes on. -/
def halSpiTransferStart (h : SpiHandler τ) (kind : SpiTransfer) :
    Bool × SpiHandler τ :=
  if h.status ≠ .busy then (false, h)
  else (true, { h with status := kind.status })

/-- Where all three transfers end, also the refused ones. -/
def halSpiTransferEnd (h : SpiHandler τ) : SpiHandler τ :=
  { h with status := .busy }

end SpiHandler

end XR872.Spi
