/-
When the state of an SPI port agrees with the sessions of the tasks.
-/

import XR872.Spi.Session

namespace XR872.Spi

open RecursiveMutexes Runs

variable {τ : Type}

namespace SpiSystem

variable {board : SpiBoard} {s s' : SpiSystem τ}

/-- What holds between steps: no task has the lock without a session, and the
task with one has it once. -/
structure Sound (s : SpiSystem τ) : Prop where
  closed : s.session = none →
    s.port.status.occupied = false ∧
      ∀ mutex, s.port.lock = some mutex → mutex = none
  opened : ∀ task config, s.session = some (task, config) →
    s.port.status.occupied = true ∧ s.port.lock = some (some (task, 0)) ∧
      s.port.regs.Hold s.port.mclk config

theorem sound_start (regs : SpiRegs) : (spiStart regs : SpiSystem τ).Sound where
  closed := fun _ => ⟨rfl, by rintro _ ⟨⟩⟩
  opened := by rintro _ _ ⟨⟩

theorem Sound.session_none (sound : s.Sound)
    (free : s.port.status.occupied = false) : s.session = none := by
  cases session : s.session with
  | none => rfl
  | some opener =>
      have occupied := (sound.opened opener.1 opener.2 session).1
      rw [free] at occupied
      cases occupied

theorem Sound.session_none_of_lock (sound : s.Sound) {failed : Prop}
    (lock : ¬ (s.port.lock.isSome = true ∨ failed)) : s.session = none := by
  cases session : s.session with
  | none => rfl
  | some opener =>
      have held := (sound.opened opener.1 opener.2 session).2.1
      exact absurd (.inl (by rw [held]; rfl)) lock

theorem Sound.session_some (sound : s.Sound)
    (occupied : s.port.status.occupied = true) :
    ∃ task config, s.session = some (task, config) ∧
      s.port.lock = some (some (task, 0)) := by
  cases session : s.session with
  | none =>
      rw [(sound.closed session).1] at occupied
      cases occupied
  | some opener =>
      exact ⟨opener.1, opener.2, rfl, (sound.opened _ _ session).2.1⟩

theorem Sound.congr (sound : s.Sound) (port : s'.port = s.port)
    (session : s'.session = s.session) : s'.Sound := by
  constructor
  · intro closed
    rw [port]
    exact sound.closed (session.symm.trans closed)
  · intro task config opened
    rw [port]
    exact sound.opened task config (session.symm.trans opened)

/-- A port that nobody has stays so, as long as nobody is given the lock. -/
theorem Sound.unused (closed : s'.session = none)
    (free : s'.port.status.occupied = false)
    (lock : ∀ mutex, s'.port.lock = some mutex → mutex = none) : s'.Sound where
  closed := fun _ => ⟨free, lock⟩
  opened := by
    intro task config opened
    cases closed.symm.trans opened

theorem Sound.occupied (sound : s.Sound)
    (before : s.port.status.occupied = true)
    (session : s'.session = s.session)
    (after : s'.port.status.occupied = true)
    (lock : s'.port.lock = s.port.lock) (mclk : s'.port.mclk = s.port.mclk)
    (regs : s'.port.regs = s.port.regs) : s'.Sound where
  closed := by
    intro closed
    have free := (sound.closed (session.symm.trans closed)).1
    rw [before] at free
    cases free
  opened := by
    intro task config opened
    rw [lock, mclk, regs]
    exact ⟨after, (sound.opened task config (session.symm.trans opened)).2⟩

variable [DecidableEq τ]

theorem heldBy_of_lock {h : SpiHandler τ} {task : τ}
    (lock : h.lock = some (some (task, 0))) : h.HeldBy task := by
  unfold SpiHandler.HeldBy
  rw [lock]
  simp [RecursiveMutex.depth]

theorem not_heldBy_of_none {h : SpiHandler τ} (task : τ)
    (lock : h.lock = none) : ¬ h.HeldBy task := by
  unfold SpiHandler.HeldBy
  rw [lock]
  exact Bool.false_ne_true

theorem Sound.agrees (sound : s.Sound) : s.Agrees := by
  constructor
  · constructor
    · intro occupied
      cases session : s.session with
      | none =>
          rw [(sound.closed session).1] at occupied
          cases occupied
      | some opener =>
          obtain ⟨_, lock, _⟩ := sound.opened opener.1 opener.2 session
          exact ⟨opener.1, opener.2, rfl, heldBy_of_lock lock⟩
    · rintro ⟨task, config, session, _⟩
      exact (sound.opened task config session).1
  · exact fun task config session => (sound.opened task config session).2.2

/-! ### States that do not agree -/

theorem not_agrees_of_closed (session : s.session = none)
    (occupied : s.port.status.occupied = true) : ¬ s.Agrees := by
  intro agrees
  obtain ⟨task, config, open_, _⟩ := agrees.occupied.mp occupied
  rw [session] at open_
  cases open_

theorem not_agrees_of_held {task : τ} {config : SpiConfig}
    (session : s.session = some (task, config)) (held : s.port.HeldBy task)
    (free : s.port.status.occupied = false) : ¬ s.Agrees := by
  intro agrees
  have occupied := agrees.occupied.mpr ⟨task, config, session, held⟩
  rw [free] at occupied
  cases occupied

theorem not_agrees_of_lost (lock : s.port.lock = none)
    (occupied : s.port.status.occupied = true) : ¬ s.Agrees := by
  intro agrees
  obtain ⟨task, _, _, held⟩ := agrees.occupied.mp occupied
  exact not_heldBy_of_none task lock held

/-! ### One step -/

theorem Sound.initCreate (sound : s.Sound) (task : τ) (phase : SpiPhase)
    (mutex semaphore : Bool) :
    (s.goOn task phase (s.port.halSpiInitCreate mutex semaphore).2).Sound := by
  unfold SpiHandler.halSpiInitCreate
  split_ifs with exists_
  · exact sound.congr rfl rfl
  · have closed := sound.session_none_of_lock exists_
    refine .unused closed (sound.closed closed).1 ?_
    rintro _ ⟨⟩
  · have closed := sound.session_none_of_lock exists_
    refine .unused closed (sound.closed closed).1 ?_
    rintro _ ⟨⟩
    rfl

theorem Sound.initFinish (sound : s.Sound) (board : SpiBoard) (task : τ)
    (phase : SpiPhase) (gconfig : SpiGlobalConfig) :
    (s.port.status.occupied = false →
      (s.goOn task phase
        (s.port.halSpiInitFinish board gconfig).2).Sound) ∧
    (s.port.status.occupied = true →
      ¬ (s.goOn task phase
        (s.port.halSpiInitFinish board gconfig).2).Agrees) := by
  unfold SpiHandler.halSpiInitFinish
  dsimp only
  constructor
  · intro free
    have closed := sound.session_none free
    split_ifs
    · exact .unused closed rfl (sound.closed closed).2
    · refine .unused closed free ?_
      rintro _ ⟨⟩
  · intro occupied
    obtain ⟨opener, config, session, lock⟩ := sound.session_some occupied
    split_ifs
    · exact not_agrees_of_held session (heldBy_of_lock lock) rfl
    · exact not_agrees_of_lost rfl occupied

theorem Sound.deinitDelete (sound : s.Sound) (task : τ) (phase : SpiPhase) :
    (s.port.status.occupied = false →
      (s.goOn task phase s.port.halSpiDeinitDelete).Sound) ∧
    (s.port.status.occupied = true →
      ¬ (s.goOn task phase s.port.halSpiDeinitDelete).Agrees) := by
  constructor
  · intro free
    refine .unused (sound.session_none free) free ?_
    rintro _ ⟨⟩
  · exact fun occupied => not_agrees_of_lost rfl occupied

theorem Sound.deinitFinish (sound : s.Sound) (task : τ) (phase : SpiPhase) :
    (s.port.status.occupied = false →
      (s.goOn task phase s.port.halSpiDeinitFinish).Sound) ∧
    (s.port.status.occupied = true →
      ¬ (s.goOn task phase s.port.halSpiDeinitFinish).Agrees) := by
  constructor
  · intro free
    have closed := sound.session_none free
    exact .unused closed rfl (sound.closed closed).2
  · intro occupied
    obtain ⟨opener, config, session, lock⟩ := sound.session_some occupied
    exact not_agrees_of_held session (heldBy_of_lock lock) rfl

theorem Sound.transferEnd (sound : s.Sound) (task : τ) (phase : SpiPhase) :
    (s.port.status.occupied = true →
      (s.goOn task phase s.port.halSpiTransferEnd).Sound) ∧
    (s.port.status.occupied = false →
      ¬ (s.goOn task phase s.port.halSpiTransferEnd).Agrees) := by
  constructor
  · exact fun before => sound.occupied before rfl rfl rfl rfl rfl
  · exact fun free => not_agrees_of_closed (sound.session_none free) rfl

theorem Sound.transferStart (sound : s.Sound) (task : τ) (phase : SpiPhase)
    (kind : SpiTransfer) :
    (s.goOn task phase (s.port.halSpiTransferStart kind).2).Sound := by
  unfold SpiHandler.halSpiTransferStart
  split_ifs with status
  · exact sound.congr rfl rfl
  · have before : s.port.status.occupied = true := by
      rw [not_not.mp status]
      rfl
    refine sound.occupied before rfl ?_ rfl rfl rfl
    cases kind <;> rfl

theorem Sound.closePort (sound : s.Sound) (task : τ) :
    ((s.port.status = .busy →
        s.session.any (fun opener => opener.1 = task) = true) →
      (s.closed task (s.port.halSpiClose task)).Sound ∧
        (s.session = none →
          (s.port.halSpiClose task).1 ≠ .ok ∧
            (s.port.halSpiClose task).2 = s.port)) ∧
    (¬ (s.port.status = .busy →
        s.session.any (fun opener => opener.1 = task) = true) →
      ¬ (s.closed task (s.port.halSpiClose task)).Agrees) := by
  by_cases busy : s.port.status = .busy
  · have occupied : s.port.status.occupied = true := by
      rw [busy]
      rfl
    obtain ⟨opener, config, session, lock⟩ := sound.session_some occupied
    obtain ⟨closed, free, left⟩ := s.port.halSpiClose_busy task busy
    have any : s.session.any (fun opener => opener.1 = task) =
        decide (opener = task) := by
      rw [session]
      rfl
    rw [lock] at left
    rw [any]
    have next : (s.closed task (s.port.halSpiClose task)).session =
        if opener = task then none else s.session := by
      unfold SpiSystem.closed
      simp only [closed, any, true_and, decide_eq_true_eq]
    by_cases mine : opener = task
    · rw [if_pos mine] at next
      refine ⟨fun _ => ⟨.unused next (by
        change (s.port.halSpiClose task).2.status.occupied = false
        rw [free]
        rfl) ?_, ?_⟩, ?_⟩
      · intro mutex holds
        have given := left.symm.trans holds
        rw [Option.map_some, mine] at given
        simp only [RecursiveMutex.unlock, if_true, Option.some.injEq] at given
        exact given.symm
      · intro none_
        cases none_.symm.trans session
      · exact fun other => absurd (fun _ => decide_eq_true mine) other
    · rw [if_neg mine] at next
      refine ⟨fun clean => absurd (of_decide_eq_true (clean busy)) mine, ?_⟩
      intro _
      refine not_agrees_of_held (next.trans session) (heldBy_of_lock ?_) ?_
      · refine left.trans ?_
        simp [RecursiveMutex.unlock, mine]
      · change (s.port.halSpiClose task).2.status.occupied = false
        rw [free]
        rfl
  · have refused : s.port.halSpiClose task = (.error, s.port) :=
      if_pos busy
    rw [refused]
    have session : (s.closed task (.error, s.port)).session = s.session := rfl
    constructor
    · intro _
      exact ⟨sound.congr rfl session,
        fun _ => ⟨fun ok => HalStatus.noConfusion ok, rfl⟩⟩
    · exact fun other => absurd (fun isBusy => absurd isBusy busy) other

theorem Sound.openPort (sound : s.Sound) (task : τ) (cs : Nat)
    (config : SpiConfig) (locked : Bool) (tx rx : Option Nat)
    (possible : locked = true → s.port.lockable task = true) :
    ((locked = true → s.port.status = .ready →
        SpiHandler.Granted config tx rx ∧ s.port.Settable config) →
      (s.opened task config
        (s.port.halSpiOpen task cs config locked tx rx)).Sound ∧
      s.Kept (s.port.halSpiOpen task cs config locked tx rx)) ∧
    (¬ (locked = true → s.port.status = .ready →
        SpiHandler.Granted config tx rx ∧ s.port.Settable config) →
      (s.opened task config
        (s.port.halSpiOpen task cs config locked tx rx)).Agrees →
      ¬ s.Kept (s.port.halSpiOpen task cs config locked tx rx)) := by
  by_cases refused : locked = true → s.port.status ≠ .ready
  · rw [s.port.halSpiOpen_refused task cs config locked tx rx possible refused]
    have session :
        (s.opened task config (.error, s.port)).session = s.session := rfl
    constructor
    · intro _
      exact ⟨sound.congr rfl session,
        fun _ => ⟨fun ok => HalStatus.noConfusion ok, rfl, rfl, rfl, rfl⟩⟩
    · exact fun other => absurd
        (fun isLocked ready => absurd ready (refused isLocked)) other
  · obtain ⟨isLocked, isReady⟩ := Classical.not_imp.mp refused
    have ready := not_not.mp isReady
    subst isLocked
    have free : s.port.status.occupied = false := by
      rw [ready]
      rfl
    have lock : s.port.lock = some none := by
      have given := possible rfl
      unfold SpiHandler.lockable at given
      cases holds : s.port.lock with
      | none => simp [holds] at given
      | some mutex =>
          rw [(sound.closed (sound.session_none free)).2 mutex holds]
    rcases s.port.halSpiOpen_cases task cs config tx rx ready with
      ⟨missing, ok, after⟩ | ⟨granted, ok, after, held, hold⟩ |
        ⟨unset, failed, after, changed⟩
    · refine ⟨fun clean => absurd (clean rfl ready).1 missing, ?_⟩
      intro _ _ kept
      exact (kept fun both => by rw [after] at both; cases both.2).1 ok
    · have session : (s.opened task config
          (s.port.halSpiOpen task cs config true tx rx)).session =
            some (task, config) := if_pos ok
      constructor
      · intro clean
        refine ⟨?_, fun obtains => absurd ⟨free, by rw [after]; rfl⟩ obtains⟩
        constructor
        · intro closed
          cases closed.symm.trans session
        · intro opener asked opened
          obtain ⟨⟩ := opened.symm.trans session
          refine ⟨?_, ?_, hold.mpr (clean rfl ready).2⟩
          · change (s.port.halSpiOpen ..).2.status.occupied = true
            rw [after]
            rfl
          · refine held.trans ?_
            rw [lock]
            rfl
      · intro dirty agrees
        exact absurd (fun _ _ =>
          ⟨granted, hold.mp (agrees.hold task config session)⟩) dirty
    · refine ⟨fun clean => absurd (clean rfl ready).2 unset, ?_⟩
      intro _ _ kept
      exact changed
        (kept fun both => by rw [after] at both; cases both.2).2.2.2.2

/-- Exactly a clean step keeps what is promised; it also keeps what holds
between steps. -/
def Decided (board : SpiBoard) (s : SpiSystem τ) (event : SpiEvent τ) : Prop :=
  (s.Clean event →
    (s.spiStep board event).Sound ∧ s.Answers board event) ∧
  (¬ s.Clean event → ¬ s.Promised board event)

theorem Sound.decided_initCheck (sound : s.Sound) (task : τ)
    (gconfig : SpiGlobalConfig) :
    s.Decided board (.initCheck task gconfig) := by
  refine ⟨fun _ => ⟨?_, trivial⟩, fun dirty => absurd trivial dirty⟩
  unfold spiStep spiCall
  dsimp only
  split_ifs
  · exact sound
  · exact sound
  · exact sound.congr rfl rfl

theorem Sound.decided_initCreate (sound : s.Sound) (task : τ)
    (mutex semaphore : Bool) :
    s.Decided board (.initCreate task mutex semaphore) := by
  refine ⟨fun _ => ⟨?_, trivial⟩, fun dirty => absurd trivial dirty⟩
  unfold spiStep spiCall
  dsimp only
  split
  · split_ifs
    · exact sound.initCreate ..
    · exact sound.initCreate ..
  · exact sound

theorem Sound.decided_initFinish (sound : s.Sound) (task : τ) :
    s.Decided board (.initFinish task) := by
  unfold Decided Clean Promised Answers spiStep spiCall
  dsimp only
  split
  · obtain ⟨kept, lost⟩ := sound.initFinish board task .idle _
    refine ⟨fun free => ⟨kept free, trivial⟩, fun dirty both => ?_⟩
    exact lost (Bool.not_eq_false _ |>.mp dirty) both.1
  · exact ⟨fun _ => ⟨sound, trivial⟩, fun dirty => absurd trivial dirty⟩

theorem Sound.decided_deinitCheck (sound : s.Sound) (task : τ) :
    s.Decided board (.deinitCheck task) := by
  refine ⟨fun _ => ⟨?_, trivial⟩, fun dirty => absurd trivial dirty⟩
  unfold spiStep spiCall
  dsimp only
  split_ifs
  · exact sound
  · exact sound
  · exact sound.congr rfl rfl

theorem Sound.decided_deinitDelete (sound : s.Sound) (task : τ) :
    s.Decided board (.deinitDelete task) := by
  unfold Decided Clean Promised Answers spiStep spiCall
  dsimp only
  split_ifs with phase
  · obtain ⟨kept, lost⟩ := sound.deinitDelete task .deinitFinish
    refine ⟨fun free => ⟨kept (free phase), trivial⟩, fun dirty both => ?_⟩
    obtain ⟨_, occupied⟩ := Classical.not_imp.mp dirty
    exact lost (Bool.not_eq_false _ |>.mp occupied) both.1
  · exact ⟨fun _ => ⟨sound, trivial⟩,
      fun dirty => absurd (fun same => absurd same phase) dirty⟩

theorem Sound.decided_deinitFinish (sound : s.Sound) (task : τ) :
    s.Decided board (.deinitFinish task) := by
  unfold Decided Clean Promised Answers spiStep spiCall
  dsimp only
  split_ifs with phase
  · obtain ⟨kept, lost⟩ := sound.deinitFinish task .idle
    refine ⟨fun free => ⟨kept (free phase), trivial⟩, fun dirty both => ?_⟩
    obtain ⟨_, occupied⟩ := Classical.not_imp.mp dirty
    exact lost (Bool.not_eq_false _ |>.mp occupied) both.1
  · exact ⟨fun _ => ⟨sound, trivial⟩,
      fun dirty => absurd (fun same => absurd same phase) dirty⟩

theorem Sound.decided_openPort (sound : s.Sound) (task : τ) (cs : Nat)
    (config : SpiConfig) (locked : Bool) (tx rx : Option Nat) :
    s.Decided board (.openPort task cs config locked tx rx) := by
  unfold Decided Clean Promised Answers spiStep spiCall
  dsimp only
  split_ifs with enabled
  · obtain ⟨idle, possible⟩ := enabled
    obtain ⟨kept, lost⟩ :=
      sound.openPort task cs config locked tx rx possible
    constructor
    · intro clean
      obtain ⟨next, answered⟩ := kept fun isLocked =>
        clean idle isLocked (possible isLocked)
      refine ⟨next, ?_⟩
      rintro _ ⟨⟩
      exact answered
    · intro dirty both
      refine lost ?_ both.1 (both.2 _ rfl)
      exact fun clean => dirty fun _ isLocked _ => clean isLocked
  · refine ⟨fun _ => ⟨sound, by rintro _ ⟨⟩⟩, fun dirty => ?_⟩
    refine absurd (fun idle isLocked possible => ?_) dirty
    exact absurd ⟨idle, fun _ => possible⟩ enabled

theorem Sound.decided_transferStart (sound : s.Sound) (task : τ)
    (kind : SpiTransfer) :
    s.Decided board (.transferStart task kind) := by
  refine ⟨fun _ => ?_, fun dirty => absurd trivial dirty⟩
  unfold Answers spiStep spiCall
  dsimp only
  by_cases idle : s.phase task = .idle
  · rw [if_pos idle]
    refine ⟨sound.transferStart task _ kind, fun closed _ => ?_⟩
    have free := (sound.closed closed).1
    have refused : s.port.halSpiTransferStart kind = (false, s.port) := by
      refine if_pos fun busy => ?_
      rw [busy] at free
      cases free
    rw [refused, closed]
    exact ⟨Function.update_self .., rfl⟩
  · rw [if_neg idle]
    exact ⟨sound, fun _ same => absurd same idle⟩

theorem Sound.decided_transferEnd (sound : s.Sound) (task : τ) :
    s.Decided board (.transferEnd task) := by
  obtain ⟨kept, lost⟩ := sound.transferEnd task .idle
  unfold Decided Clean Promised Answers spiStep spiCall
  dsimp only
  cases phase : s.phase task with
  | idle | initCreate | initFinish | deinitDelete | deinitFinish =>
      exact ⟨fun _ => ⟨sound, fun other => by cases other⟩,
        fun dirty => absurd trivial dirty⟩
  | transferring =>
      refine ⟨fun occupied => ⟨kept occupied, fun other => by cases other⟩,
        fun dirty both => ?_⟩
      exact lost (Bool.not_eq_true _ |>.mp dirty) both.1
  | refused duringSession =>
      cases duringSession with
      | true =>
          refine ⟨fun occupied => ⟨kept occupied, fun other => by
            cases other⟩, fun dirty both => ?_⟩
          exact lost (Bool.not_eq_true _ |>.mp dirty) both.1
      | false =>
          constructor
          · intro busy
            have occupied : s.port.status.occupied = true := by
              rw [busy]
              rfl
            refine ⟨kept occupied, fun _ => ⟨rfl, ?_⟩⟩
            change { s.port with status := .busy } = s.port
            rw [← busy]
          · intro dirty both
            have same := (both.2 rfl).2
            exact dirty (congrArg SpiHandler.status same).symm

theorem Sound.decided_closePort (sound : s.Sound) (task : τ) :
    s.Decided board (.closePort task) := by
  unfold Decided Clean Promised Answers spiStep spiCall
  dsimp only
  split_ifs with idle
  · obtain ⟨kept, lost⟩ := sound.closePort task
    constructor
    · intro clean
      obtain ⟨next, answered⟩ := kept (clean idle)
      refine ⟨next, fun closed => ?_⟩
      obtain ⟨failed, same⟩ := answered closed
      exact ⟨fun ok => failed (Option.some.inj ok), same⟩
    · intro dirty both
      exact lost (fun clean => dirty fun _ => clean) both.1
  · refine ⟨fun _ => ⟨sound, fun _ => ⟨nofun, rfl⟩⟩, ?_⟩
    exact fun dirty => absurd (fun same => absurd same idle) dirty

theorem Sound.decided (sound : s.Sound) (event : SpiEvent τ) :
    s.Decided board event := by
  cases event with
  | initCheck task gconfig =>
      exact sound.decided_initCheck task gconfig
  | initCreate task mutex semaphore =>
      exact sound.decided_initCreate task mutex semaphore
  | initFinish task =>
      exact sound.decided_initFinish task
  | deinitCheck task =>
      exact sound.decided_deinitCheck task
  | deinitDelete task =>
      exact sound.decided_deinitDelete task
  | deinitFinish task =>
      exact sound.decided_deinitFinish task
  | openPort task cs config locked tx rx =>
      exact sound.decided_openPort task cs config locked tx rx
  | transferStart task kind =>
      exact sound.decided_transferStart task kind
  | transferEnd task =>
      exact sound.decided_transferEnd task
  | closePort task =>
      exact sound.decided_closePort task

end SpiSystem

variable [DecidableEq τ]

open SpiSystem in
/-- The promise is kept in a run from power-up exactly if every step of it is
clean. -/
theorem promised_along (board : SpiBoard) (regs : SpiRegs)
    (events : List (SpiEvent τ)) :
    (spiStart regs : SpiSystem τ).Agrees ∧
        Along (spiStep board) (Promised board) (spiStart regs) events ↔
      Along (spiStep board) Clean (spiStart regs) events := by
  rw [and_iff_right (sound_start regs).agrees]
  apply along_iff_along_of_kept (Promised board) Clean Sound
  · exact fun s event sound clean => ((sound.decided event).1 clean).1
  · intro s event sound
    obtain ⟨clean, dirty⟩ := (sound.decided event : s.Decided board event)
    constructor
    · intro promised
      by_contra isDirty
      exact dirty isDirty promised
    · intro isClean
      obtain ⟨next, answered⟩ := clean isClean
      exact ⟨next.agrees, answered⟩
  · exact sound_start regs

/-- A transfer on a port that was not even initialized is refused, and leaves
it `BUSY`. -/
theorem transmit_without_session :
    ¬ (run (SpiSystem.spiStep
        { hfClock := 24000000
          devClock := 80000000
          busReset := id
          softReset := id })
      (spiStart
        { mode := .slave
          firstBit := .msb
          sclkMode := .mode3
          drs := false
          cdr1 := 0
          cdr2 := 0 } : SpiSystem Unit)
      [.transferStart () .transmit, .transferEnd ()]).Agrees :=
  SpiSystem.not_agrees_of_closed rfl rfl

end XR872.Spi
