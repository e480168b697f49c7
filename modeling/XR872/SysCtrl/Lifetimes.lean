/-
What every call of the event framework releases.

A construction fails cleanly only in some of its steps. A queue that was made
keeps its five parts and the copies of its messages, and its deinit releases
the parts alone.
-/

import XR872.SysCtrl.Construction

namespace XR872.SysCtrl

open Circles
open Resources
open Runs

variable {size : Nat} {μ : Type}

/-! ### The promise -/

/-- Only what is held is used or released, and a construction that fails
releases each part as often as it acquired it. -/
structure Straight (held : List Part) (made : Bool)
    (effects : List (Effect Part)) : Prop where
  plays : (Resources.play held effects).isSome = true
  undone : made = false → ∀ part,
    effects.count (.acquire part) = effects.count (.release part)

section Promise

variable (sysCtrlPrioQueue : Bool) (event : μ → Nat)

def FrameworkPromise (framework : Framework μ) : FrameworkCall μ → Prop
  | .createQueue _ answers =>
      let built := prioEventQueueBuilt answers
      Straight (framework.held framework.serial) built.made built.effects
  | .send owner msg addr =>
      ∀ size queue, framework.queues owner = some ⟨size, queue⟩ →
        (Resources.play (framework.held owner)
          (prioEventSendEffects event queue msg addr)).isSome = true
  | .recv owner =>
      ∀ size queue, framework.queues owner = some ⟨size, queue⟩ →
        (Resources.play (framework.held owner)
          (prioEventRecvEffects queue)).isSome = true
  | .deinit owner =>
      (framework.queues owner).isSome = true →
        Resources.play (framework.held owner) prioEventQueueDeinit = some []
  | .sysCtrlCreate queue publisher =>
      let behind := framework.makeQueue sysCtrlPrioQueue queue
      let last := behind.makePublisher publisher
      (framework.sysQueue = none →
        Straight (framework.held framework.serial)
          (sysQueueBuilt sysCtrlPrioQueue queue).made
          (sysQueueBuilt sysCtrlPrioQueue queue).effects) ∧
      (behind.sysQueue ≠ none → behind.sysPublisher = none →
        Straight (behind.held behind.serial) (sysPublisherBuilt publisher).made
          (sysPublisherBuilt publisher).effects) ∧
      (sysCtrlRet last = 0 →
        ∃ bytes, last.sysPublisher = some (some bytes) ∧
          sysCtrlMsgSize ≤ bytes)

/-! ### The condition -/

def QueueClean (answers : QueueAnswers) : Prop :=
  answers.queue = false ∨ answers.list = false ∨
    answers.sem = true ∧ answers.lock = true ∧ answers.pool = true

instance (answers : QueueAnswers) : Decidable (QueueClean answers) :=
  inferInstanceAs (Decidable (_ ∨ _ ∨ _))

def QueueMade (answers : QueueAnswers) : Prop :=
  answers.queue = true ∧
    if sysCtrlPrioQueue then
      answers.list = true ∧ answers.sem = true ∧ answers.lock = true ∧
        answers.pool = true
    else answers.osQueue = true

def PublisherClean (answers : PublisherAnswers) : Prop :=
  answers.publisher = true ∧ answers.factory = true ∧ answers.lock = true ∧
    answers.looper = true ∧ answers.looperFactory = true ∧
    (answers.msg = true ∨ answers.thread = false)

instance (answers : PublisherAnswers) : Decidable (PublisherClean answers) :=
  inferInstanceAs (Decidable (_ ∧ _))

def FrameworkClean (framework : Framework μ) : FrameworkCall μ → Prop
  | .createQueue _ answers => QueueClean answers
  | .send _ _ _ => True
  | .recv _ => True
  | .deinit owner =>
      ∀ size queue, framework.queues owner = some ⟨size, queue⟩ →
        ∀ addr, queue.heap addr = none
  | .sysCtrlCreate queue publisher =>
      (framework.sysQueue = none → sysCtrlPrioQueue = true →
        QueueClean queue) ∧
      (framework.sysQueue ≠ none ∨ QueueMade sysCtrlPrioQueue queue →
        framework.sysPublisher = none → PublisherClean publisher)

end Promise

/-! ### Constructions -/

def queueParts : List Part := [.queue, .list, .sem, .lock, .pool]

theorem straight_of_play (held : List Part) (made : Bool)
    (effects : List (Effect Part)) (next : List Part)
    (played : Resources.play held effects = some next)
    (undone : made = false → next = held) : Straight held made effects := by
  constructor
  · rw [played]
    rfl
  · intro failed
    rw [undone failed] at played
    exact count_of_balanced held effects played

theorem not_straight_of_play (held : List Part) (made : Bool)
    (effects : List (Effect Part))
    (stopped : Resources.play held effects = none) :
    ¬ Straight held made effects := by
  intro straight
  have plays := straight.plays
  rw [stopped] at plays
  cases plays

theorem prioEventQueueBuilt_play (answers : QueueAnswers) :
    Resources.play [] (prioEventQueueBuilt answers).effects =
      if QueueClean answers then
        some (if (prioEventQueueBuilt answers).made then queueParts else [])
      else none := by
  obtain ⟨queue, list, sem, lock, pool, osQueue⟩ := answers
  revert queue list sem lock pool osQueue
  decide

theorem normalEventQueueBuilt_play (answers : QueueAnswers) :
    Resources.play [] (normalEventQueueBuilt answers).effects =
      some (if (normalEventQueueBuilt answers).made then [.queue, .osQueue]
        else []) := by
  obtain ⟨queue, list, sem, lock, pool, osQueue⟩ := answers
  revert queue list sem lock pool osQueue
  decide

theorem sysQueueBuilt_made (sysCtrlPrioQueue : Bool) (answers : QueueAnswers) :
    (sysQueueBuilt sysCtrlPrioQueue answers).made = true ↔
      QueueMade sysCtrlPrioQueue answers := by
  obtain ⟨queue, list, sem, lock, pool, osQueue⟩ := answers
  unfold QueueMade
  revert sysCtrlPrioQueue queue list sem lock pool osQueue
  decide

theorem sysQueueBuilt_straight (sysCtrlPrioQueue : Bool)
    (answers : QueueAnswers) :
    Straight [] (sysQueueBuilt sysCtrlPrioQueue answers).made
        (sysQueueBuilt sysCtrlPrioQueue answers).effects ↔
      (sysCtrlPrioQueue = true → QueueClean answers) := by
  unfold sysQueueBuilt
  by_cases prio : sysCtrlPrioQueue = true
  · rw [if_pos prio]
    have played := prioEventQueueBuilt_play answers
    by_cases clean : QueueClean answers
    · rw [if_pos clean] at played
      refine iff_of_true (straight_of_play _ _ _ _ played ?_) fun _ => clean
      intro failed
      rw [failed]
      rfl
    · rw [if_neg clean] at played
      exact iff_of_false (not_straight_of_play _ _ _ played)
        fun cleans => clean (cleans prio)
  · rw [if_neg prio]
    apply iff_of_true _ fun same => absurd same prio
    apply straight_of_play _ _ _ _ (normalEventQueueBuilt_play answers)
    intro failed
    rw [failed]
    rfl

theorem sysPublisherBuilt_clean (answers : PublisherAnswers)
    (clean : PublisherClean answers) :
    (Resources.play [] (sysPublisherBuilt answers).effects).isSome = true ∧
      ((sysPublisherBuilt answers).made = false →
        Resources.play [] (sysPublisherBuilt answers).effects = some []) ∧
      ((sysPublisherBuilt answers).made = true →
        (sysPublisherBuilt answers).msg = some sysCtrlMsgSize) := by
  obtain ⟨publisher, factory, unsetRet, lock, looper, looperFactory, msg,
    spareMsg, thread⟩ := answers
  obtain ⟨rfl, rfl, rfl, rfl, rfl, buffer⟩ := clean
  revert unsetRet msg spareMsg thread
  decide

/-- Without its factory, its looper's factory or its looper the construction
goes through a null pointer; without its message buffer it goes through. -/
theorem sysPublisherBuilt_unclean (answers : PublisherAnswers)
    (unclean : ¬ PublisherClean answers) :
    Resources.play [] (sysPublisherBuilt answers).effects = none ∨
      (sysPublisherBuilt answers).made = true ∧
        ((sysPublisherBuilt answers).msg.all
          fun bytes => bytes < sysCtrlMsgSize) = true := by
  obtain ⟨publisher, factory, unsetRet, lock, looper, looperFactory, msg,
    spareMsg, thread⟩ := answers
  revert publisher factory unsetRet lock looper looperFactory msg spareMsg
    thread
  decide

/-! ### Queues that were made -/

structure QueueKept (held : List Part) (queue : PrioEventQueue size μ) :
    Prop where
  shaped : Shaped queue.container
  permits : queue.permits ≤ 1
  loaded : queue.permits ≠ 0 →
    ∃ index, Slot queue.container index ∧
      (queue.heap (queue.container.args index)).isSome = true
  nodup : held.Nodup
  parts : ∀ part, part ∈ held ↔
    part ∈ queueParts ∨
      ∃ addr, part = .copy addr ∧ (queue.heap addr).isSome = true

theorem queueKept_create (queueLen : Nat) :
    QueueKept queueParts (prioEventQueueCreate queueLen μ) := by
  exact {
    shaped := Or.inl rfl
    permits := Nat.zero_le 1
    loaded := fun waiting => absurd rfl waiting
    nodup := by decide
    parts := by
      intro part
      constructor
      · exact Or.inl
      · rintro (own | ⟨addr, _, live⟩)
        · exact own
        · cases live }

section Kept

variable {held : List Part} {queue : PrioEventQueue size μ}

theorem QueueKept.own (kept : QueueKept held queue) (part : Part)
    (own : part ∈ queueParts) : part ∈ held :=
  (kept.parts part).mpr (Or.inl own)

theorem QueueKept.copy_iff (kept : QueueKept held queue) (addr : Nat) :
    .copy addr ∈ held ↔ (queue.heap addr).isSome = true := by
  rw [kept.parts]
  constructor
  · rintro (own | ⟨other, same, live⟩)
    · exact absurd own (by simp [queueParts])
    · cases same
      exact live
  · intro live
    exact Or.inr ⟨addr, rfl, live⟩

/-- The scan compares with the one slot, whose argument was overwritten
before. -/
theorem compared_self (compare : Nat → Nat → Int) (arg : Nat)
    (shaped : Shaped queue.container) (before : 0 ≤ compare arg arg) :
    ∀ oldMsg ∈ sortedListPushCompared compare queue.container arg,
      oldMsg = arg := by
  intro oldMsg member
  unfold sortedListPushCompared at member
  rcases shaped with new | ⟨index, slot⟩
  · have front := (@sortedListInit_circles Nat _ size).2.path.1
    rw [← new] at front
    cases first : queue.container.links.next .pool with
    | head =>
        rw [first] at member
        cases member
    | pool =>
        rw [first] at member
        cases member
    | buf index =>
        rw [first] at member
        dsimp only at member
        rw [front] at member
        cases member
  · rw [slot.pool] at member
    dsimp only at member
    rw [slot.front, sortedListCompared] at member
    simp only [Function.update_self, if_pos before] at member
    exact List.mem_singleton.mp member

variable (event : μ → Nat)

theorem play_newMsg (kept : QueueKept held queue) (newMsg : Nat)
    (later : List (Effect Part)) :
    Resources.play held
        ([.use (some .queue), .acquire (.copy newMsg),
            .use (some (.copy newMsg)), .use (some .list), .use (some .lock),
            .use (some .pool)] ++ later) =
      Resources.play (held ++ [.copy newMsg]) later := by
  have own (part : Part) (is_own : part ∈ queueParts) :
      part ∈ held ++ [.copy newMsg] :=
    List.mem_append_left _ (kept.own part is_own)
  change Resources.play held (.use (some .queue) :: .acquire (.copy newMsg) ::
    .use (some (.copy newMsg)) :: .use (some .list) :: .use (some .lock) ::
    .use (some .pool) :: later) = _
  rw [play_use _ _ _ (kept.own .queue (by decide)), play_acquire,
    play_use _ _ _ (List.mem_append_right _ List.mem_cons_self),
    play_use _ _ _ (own .list (by decide)),
    play_use _ _ _ (own .lock (by decide)),
    play_use _ _ _ (own .pool (by decide))]

theorem QueueKept.sent (kept : QueueKept held queue) (msg : μ) (newMsg : Nat)
    (free : queue.heap newMsg = none) (container : SortedList size Nat)
    (index : Fin size) (slot : Slot container index)
    (arg : container.args index = newMsg) :
    QueueKept (held ++ [.copy newMsg])
      { container
        permits := Machine.release queue.permits
        heap := Function.update queue.heap newMsg (some msg) } := by
  have absent : Part.copy newMsg ∉ held := by
    rw [kept.copy_iff, free]
    exact Bool.false_ne_true
  have here : (Function.update queue.heap newMsg (some msg)
      newMsg).isSome = true := by
    rw [Function.update_self]
    rfl
  exact {
    shaped := Or.inr ⟨index, slot⟩
    permits := Nat.min_le_right _ _
    loaded := by
      intro _
      refine ⟨index, slot, ?_⟩
      rw [arg]
      exact here
    nodup := by
      rw [List.nodup_append_comm]
      exact List.nodup_cons.mpr ⟨absent, kept.nodup⟩
    parts := by
      intro part
      rw [List.mem_append, List.mem_singleton, kept.parts, or_assoc]
      refine or_congr_right ?_
      constructor
      · rintro (⟨addr, same, live⟩ | same)
        · refine ⟨addr, same, ?_⟩
          by_cases new : addr = newMsg
          · rw [new]
            exact here
          · dsimp only
            rw [Function.update_of_ne new]
            exact live
        · exact ⟨newMsg, same, here⟩
      · rintro ⟨addr, same, live⟩
        by_cases new : addr = newMsg
        · exact Or.inr (new ▸ same)
        · dsimp only at live
          rw [Function.update_of_ne new] at live
          exact Or.inl ⟨addr, same, live⟩ }

theorem prioEventSend_kept (kept : QueueKept held queue) (msg : μ)
    (addr : Option Nat) :
    ∃ ret next after,
      prioEventSend event queue msg addr = some (ret, next) ∧
        Resources.play held (prioEventSendEffects event queue msg addr) =
          some after ∧
        QueueKept after next := by
  have idle : Resources.play held [.use (some .queue)] = some held :=
    play_use _ _ _ (kept.own .queue (by decide))
  rcases prioEventSend_cases event queue msg addr kept.shaped with
    ⟨ret, _, send, blocked⟩ |
    ⟨newMsg, container, index, rfl, free, room, slot, arg, send⟩
  · refine ⟨ret, queue, held, send, ?_, kept⟩
    cases addr with
    | none => exact idle
    | some newMsg =>
        unfold prioEventSendEffects
        by_cases used : (queue.heap newMsg).isSome = true
        · dsimp only
          rw [if_pos used]
          exact idle
        · have free := Option.not_isSome_iff_eq_none.mp used
          have absent : Part.copy newMsg ∉ held :=
            fun member => used ((kept.copy_iff newMsg).mp member)
          dsimp only
          rw [if_neg used, blocked newMsg rfl free, if_neg Bool.false_ne_true,
            play_newMsg kept,
            play_release _ _ _ (List.mem_append_right _ List.mem_cons_self),
            List.erase_append_right _ absent, List.erase_cons_head,
            List.append_nil]
          rfl
  · refine ⟨0, _, held ++ [.copy newMsg], send, ?_,
      kept.sent msg newMsg free container index slot arg⟩
    unfold prioEventSendEffects
    dsimp only
    have unused : ¬ (queue.heap newMsg).isSome = true := by
      rw [free]
      exact Bool.false_ne_true
    rw [if_neg unused, if_pos room, play_newMsg kept, play_uses _ _ _ ?_]
    · exact play_use _ _ _
        (List.mem_append_left _ (kept.own .sem (by decide)))
    · intro part member
      obtain ⟨oldMsg, compared, either⟩ := List.mem_flatMap.mp member
      have same := compared_self _ newMsg kept.shaped
        (complareEventMsg_nonneg _ _ _) oldMsg compared
      rw [same] at either
      apply List.mem_append_right
      simpa using either

theorem prioEventRecv_kept (kept : QueueKept held queue) :
    ∃ after,
      Resources.play held (prioEventRecvEffects queue) = some after ∧
        QueueKept after (prioEventRecv queue).2 := by
  have waited (later : List (Effect Part)) :
      Resources.play held ([.use (some .queue), .use (some .list),
          .use (some .sem)] ++ later) = Resources.play held later := by
    change Resources.play held (.use (some .queue) :: .use (some .list) ::
      .use (some .sem) :: later) = _
    rw [play_use _ _ _ (kept.own .queue (by decide)),
      play_use _ _ _ (kept.own .list (by decide)),
      play_use _ _ _ (kept.own .sem (by decide))]
  unfold prioEventRecvEffects
  by_cases empty : queue.permits = 0
  · rw [if_pos empty, waited, prioEventRecv_none queue empty]
    exact ⟨held, rfl, kept⟩
  · obtain ⟨index, slot, live⟩ := kept.loaded empty
    obtain ⟨container, left, received⟩ :=
      prioEventRecv_slot queue index slot empty
    obtain ⟨_, take, _⟩ := sortedListTake_slot queue.container index slot
    have member := (kept.copy_iff _).mpr live
    rw [if_neg empty, waited, take, received]
    dsimp only
    rw [play_use _ _ _ (kept.own .lock (by decide)),
      play_use _ _ _ (kept.own .pool (by decide)), play_use _ _ _ member,
      play_release _ _ _ member]
    refine ⟨_, rfl, ?_⟩
    exact {
      shaped := Or.inr ⟨index, left⟩
      permits := (Nat.sub_le _ _).trans kept.permits
      loaded := by
        intro waiting
        have permits := kept.permits
        dsimp only at waiting
        omega
      nodup := kept.nodup.erase _
      parts := by
        intro part
        rw [kept.nodup.mem_erase_iff, kept.parts]
        constructor
        · rintro ⟨apart, own | ⟨addr, same, isSome⟩⟩
          · exact Or.inl own
          · refine Or.inr ⟨addr, same, ?_⟩
            have other : addr ≠ queue.container.args index := by
              rintro rfl
              exact apart same
            dsimp only
            rw [Function.update_of_ne other]
            exact isSome
        · rintro (own | ⟨addr, same, isSome⟩)
          · refine ⟨?_, Or.inl own⟩
            rintro rfl
            exact absurd own (by simp [queueParts])
          · dsimp only at isSome
            have other : addr ≠ queue.container.args index := by
              rintro rfl
              rw [Function.update_self] at isSome
              cases isSome
            rw [Function.update_of_ne other] at isSome
            refine ⟨?_, Or.inr ⟨addr, same, isSome⟩⟩
            rw [same]
            intro copies
            exact other (Part.copy.inj copies) }

/-- Only the parts are released, so that nothing is left exactly if no copy is
allocated. -/
theorem prioEventQueueDeinit_iff (kept : QueueKept held queue) :
    Resources.play held prioEventQueueDeinit = some [] ↔
      ∀ addr, queue.heap addr = none := by
  have further {part : Part} {parts : List Part} (other : Part)
      (apart : part ≠ other) (member : part ∈ parts) :
      part ∈ parts.erase other :=
    (List.mem_erase_of_ne apart).mpr member
  have sem := kept.own .sem (by decide)
  have lock := further .sem (by decide) (kept.own .lock (by decide))
  have list := further .lock (by decide)
    (further .sem (by decide) (kept.own .list (by decide)))
  have pool := further .lock (by decide)
    (further .sem (by decide) (kept.own .pool (by decide)))
  have queue_ := further .list (by decide) (further .pool (by decide)
    (further .lock (by decide)
      (further .sem (by decide) (kept.own .queue (by decide)))))
  unfold prioEventQueueDeinit
  rw [play_use _ _ _ (kept.own .queue (by decide)),
    play_use _ _ _ (kept.own .list (by decide)), play_release _ _ _ sem,
    play_release _ _ _ lock, play_use _ _ _ list, play_release _ _ _ pool,
    play_release _ _ _ (further .pool (by decide) list),
    play_release _ _ _ queue_]
  change some _ = some [] ↔ _
  rw [Option.some.injEq, List.eq_nil_iff_forall_not_mem]
  have nodup := kept.nodup
  have left (part : Part) :
      part ∈ ((((held.erase .sem).erase .lock).erase .pool).erase
          .list).erase .queue ↔
        part ∉ queueParts ∧ part ∈ held := by
    rw [(((((nodup.erase _).erase _).erase _).erase _)).mem_erase_iff,
      ((((nodup.erase _).erase _).erase _)).mem_erase_iff,
      (((nodup.erase _).erase _)).mem_erase_iff,
      (nodup.erase _).mem_erase_iff, nodup.mem_erase_iff]
    simp only [queueParts, List.mem_cons, List.not_mem_nil, or_false, not_or]
    tauto
  constructor
  · intro nothing addr
    by_contra live
    refine nothing (.copy addr) ((left _).mpr ⟨by simp [queueParts], ?_⟩)
    rw [kept.copy_iff]
    exact Option.isSome_iff_ne_none.mpr live
  · intro none_ part member
    obtain ⟨foreign, member⟩ := (left part).mp member
    rcases (kept.parts part).mp member with own | ⟨addr, _, live⟩
    · exact foreign own
    · rw [none_ addr] at live
      cases live

end Kept

/-! ### The framework -/

structure FrameworkKept (framework : Framework μ) : Prop where
  fresh : ∀ owner, framework.serial ≤ owner →
    framework.held owner = [] ∧ framework.queues owner = none
  queues : ∀ owner size (queue : PrioEventQueue size μ),
    framework.queues owner = some ⟨size, queue⟩ →
      QueueKept (framework.held owner) queue
  large : ∀ msg, framework.sysPublisher = some msg →
    ∃ bytes, msg = some bytes ∧ sysCtrlMsgSize ≤ bytes

theorem frameworkKept_boot : FrameworkKept (Framework.boot μ) := by
  exact {
    fresh := fun _ _ => ⟨rfl, rfl⟩
    queues := nofun
    large := nofun }

section Framework

variable {framework : Framework μ}

theorem FrameworkKept.below (kept : FrameworkKept framework) (owner : Nat)
    (live : framework.queues owner ≠ none) : owner < framework.serial := by
  by_contra above
  exact live (kept.fresh owner (Nat.not_lt.mp above)).2

theorem FrameworkKept.update (kept : FrameworkKept framework)
    (next : Framework μ) (owner : Nat) (held : List Part)
    (queue : Option (Sigma fun size => PrioEventQueue size μ))
    (grown : framework.serial ≤ next.serial) (below : owner < next.serial)
    (nextHeld : next.held = Function.update framework.held owner held)
    (nextQueues : next.queues = Function.update framework.queues owner queue)
    (queueKept : ∀ size (made : PrioEventQueue size μ),
      queue = some ⟨size, made⟩ → QueueKept held made)
    (large : ∀ msg, next.sysPublisher = some msg →
      ∃ bytes, msg = some bytes ∧ sysCtrlMsgSize ≤ bytes) :
    FrameworkKept next := by
  exact {
    fresh := by
      intro other above
      have apart : other ≠ owner := by omega
      rw [nextHeld, nextQueues, Function.update_of_ne apart,
        Function.update_of_ne apart]
      exact kept.fresh other (grown.trans above)
    queues := by
      intro other size made found
      rw [nextQueues] at found
      rw [nextHeld]
      by_cases same : other = owner
      · rw [same, Function.update_self] at found
        rw [same, Function.update_self]
        exact queueKept size made found
      · rw [Function.update_of_ne same] at found
        rw [Function.update_of_ne same]
        exact kept.queues other size made found
    large := large }

theorem Framework.held_play (framework : Framework μ) (owner : Nat)
    (effects : List (Effect Part)) (after : List Part)
    (played : Resources.play (framework.held owner) effects = some after) :
    (framework.play owner effects).held =
      Function.update framework.held owner after := by
  unfold Framework.play
  rw [played]
  rfl

variable (sysCtrlPrioQueue : Bool) (event : μ → Nat)

theorem createQueue_kept (kept : FrameworkKept framework) (queueLen : Nat)
    (answers : QueueAnswers) (clean : QueueClean answers) :
    FrameworkKept (frameworkStep sysCtrlPrioQueue event framework
      (.createQueue queueLen answers)) := by
  have played := prioEventQueueBuilt_play answers
  rw [if_pos clean, ← (kept.fresh _ le_rfl).1] at played
  refine kept.update _ framework.serial _ _ (Nat.le_succ _)
    (Nat.lt_succ_self _) (framework.held_play _ _ _ played) rfl ?_ kept.large
  intro size queue made
  by_cases built : (prioEventQueueBuilt answers).made = true
  · rw [if_pos built] at made ⊢
    cases made
    exact queueKept_create queueLen
  · rw [if_neg built] at made
    cases made

theorem send_kept (kept : FrameworkKept framework) (owner : Nat) (msg : μ)
    (addr : Option Nat) :
    FrameworkKept (frameworkStep sysCtrlPrioQueue event framework
      (.send owner msg addr)) := by
  dsimp only [frameworkStep]
  cases found : framework.queues owner with
  | none => exact kept
  | some sized =>
      obtain ⟨size, queue⟩ := sized
      obtain ⟨ret, next, after, send, played, queueKept⟩ :=
        prioEventSend_kept event (kept.queues owner size queue found) msg addr
      dsimp only
      rw [send]
      dsimp only
      have below := kept.below owner (by rw [found]; exact nofun)
      refine kept.update _ owner after _ le_rfl below
        (framework.held_play _ _ _ played) rfl ?_ kept.large
      intro other made same
      cases same
      exact queueKept

theorem recv_kept (kept : FrameworkKept framework) (owner : Nat) :
    FrameworkKept (frameworkStep sysCtrlPrioQueue event framework
      (.recv owner)) := by
  dsimp only [frameworkStep]
  cases found : framework.queues owner with
  | none => exact kept
  | some sized =>
      obtain ⟨size, queue⟩ := sized
      obtain ⟨after, played, queueKept⟩ :=
        prioEventRecv_kept (kept.queues owner size queue found)
      have below := kept.below owner (by rw [found]; exact nofun)
      refine kept.update _ owner after _ le_rfl below
        (framework.held_play _ _ _ played) rfl ?_ kept.large
      intro other made same
      cases same
      exact queueKept

theorem deinit_kept (kept : FrameworkKept framework) (owner : Nat) :
    FrameworkKept (frameworkStep sysCtrlPrioQueue event framework
      (.deinit owner)) := by
  dsimp only [frameworkStep]
  cases found : framework.queues owner with
  | none => exact kept
  | some sized =>
      have below := kept.below owner (by rw [found]; exact nofun)
      exact kept.update _ owner _ none le_rfl below rfl rfl nofun kept.large

/-- The construction of a part of `sys_ctrl_create` leaves the queues of the
callers as they are. -/
theorem FrameworkKept.construct (kept : FrameworkKept framework)
    (effects : List (Effect Part)) (sysQueue : Option Nat)
    (sysPublisher : Option (Option Nat))
    (large : ∀ msg, sysPublisher = some msg →
      ∃ bytes, msg = some bytes ∧ sysCtrlMsgSize ≤ bytes) :
    FrameworkKept
      { framework.play framework.serial effects with
        serial := framework.serial + 1
        sysQueue := sysQueue
        sysPublisher := sysPublisher } := by
  have none_ : framework.queues =
      Function.update framework.queues framework.serial none :=
    (Function.update_eq_self_iff.mpr (kept.fresh _ le_rfl).2.symm).symm
  exact kept.update _ framework.serial _ none (Nat.le_succ _)
    (Nat.lt_succ_self _) rfl none_ nofun large

theorem makeQueue_kept (kept : FrameworkKept framework)
    (answers : QueueAnswers) :
    FrameworkKept (framework.makeQueue sysCtrlPrioQueue answers) := by
  unfold Framework.makeQueue
  split
  · exact kept.construct _ _ _ kept.large
  · exact kept

theorem makePublisher_kept (kept : FrameworkKept framework)
    (answers : PublisherAnswers)
    (clean : framework.sysQueue ≠ none → framework.sysPublisher = none →
      PublisherClean answers) :
    FrameworkKept (framework.makePublisher answers) := by
  unfold Framework.makePublisher
  split
  · rename_i makes
    apply kept.construct
    intro msg made
    by_cases built : (sysPublisherBuilt answers).made = true
    · rw [if_pos built] at made
      obtain ⟨_, _, size⟩ :=
        sysPublisherBuilt_clean answers (clean makes.1 makes.2)
      rw [← Option.some.inj made, size built]
      exact ⟨_, rfl, le_rfl⟩
    · rw [if_neg built] at made
      cases made
  · exact kept

theorem makeQueue_made (answers : QueueAnswers) :
    (framework.makeQueue sysCtrlPrioQueue answers).sysQueue ≠ none ↔
      framework.sysQueue ≠ none ∨ QueueMade sysCtrlPrioQueue answers := by
  rw [← sysQueueBuilt_made]
  unfold Framework.makeQueue
  by_cases has : framework.sysQueue = none
  · rw [if_pos has]
    dsimp only
    by_cases built : (sysQueueBuilt sysCtrlPrioQueue answers).made = true
    · rw [if_pos built]
      exact iff_of_true nofun (Or.inr built)
    · rw [if_neg built]
      exact iff_of_false (fun some_ => some_ rfl)
        fun either => either.elim (fun some_ => some_ has) built
  · rw [if_neg has]
    exact iff_of_true has (Or.inl has)

theorem makeQueue_sysPublisher (answers : QueueAnswers) :
    (framework.makeQueue sysCtrlPrioQueue answers).sysPublisher =
      framework.sysPublisher := by
  unfold Framework.makeQueue
  split
  · rfl
  · rfl

theorem sysCtrlRet_iff :
    sysCtrlRet framework = 0 ↔
      framework.sysQueue ≠ none ∧ framework.sysPublisher ≠ none := by
  unfold sysCtrlRet
  by_cases has : framework.sysQueue = none
  · rw [if_pos has]
    exact iff_of_false (by decide) fun both => both.1 has
  · rw [if_neg has]
    by_cases publishes : framework.sysPublisher = none
    · rw [if_pos publishes]
      exact iff_of_false (by decide) fun both => both.2 publishes
    · rw [if_neg publishes]
      exact iff_of_true rfl ⟨has, publishes⟩

/-- The publisher is made straight and with a buffer that is large enough. -/
theorem makePublisher_iff (kept : FrameworkKept framework)
    (answers : PublisherAnswers) :
    (framework.sysQueue ≠ none → framework.sysPublisher = none →
          Straight (framework.held framework.serial)
            (sysPublisherBuilt answers).made
            (sysPublisherBuilt answers).effects) ∧
        (sysCtrlRet (framework.makePublisher answers) = 0 →
          ∃ bytes, (framework.makePublisher answers).sysPublisher =
              some (some bytes) ∧ sysCtrlMsgSize ≤ bytes) ↔
      (framework.sysQueue ≠ none → framework.sysPublisher = none →
        PublisherClean answers) := by
  by_cases makes : framework.sysQueue ≠ none ∧ framework.sysPublisher = none
  · rw [(kept.fresh _ le_rfl).1, Framework.makePublisher, if_pos makes]
    by_cases clean : PublisherClean answers
    · obtain ⟨plays, undone, size⟩ := sysPublisherBuilt_clean answers clean
      refine iff_of_true ⟨fun _ _ => ?_, ?_⟩ fun _ _ => clean
      · obtain ⟨next, played⟩ := Option.isSome_iff_exists.mp plays
        apply straight_of_play _ _ _ next played
        intro failed
        exact Option.some.inj (played.symm.trans (undone failed))
      · intro returned
        by_cases built : (sysPublisherBuilt answers).made = true
        · refine ⟨sysCtrlMsgSize, ?_, le_rfl⟩
          dsimp only
          rw [if_pos built, size built]
        · have published := (sysCtrlRet_iff.mp returned).2
          dsimp only at published
          rw [if_neg built] at published
          exact absurd rfl published
    · refine iff_of_false ?_ fun cleans => clean (cleans makes.1 makes.2)
      rintro ⟨straight, large⟩
      rcases sysPublisherBuilt_unclean answers clean with
        stopped | ⟨built, small⟩
      · exact not_straight_of_play _ _ _ stopped (straight makes.1 makes.2)
      · dsimp only at large
        rw [if_pos built] at large
        obtain ⟨bytes, made, enough⟩ :=
          large (sysCtrlRet_iff.mpr ⟨makes.1, nofun⟩)
        rw [Option.some.inj made, Option.all_some, decide_eq_true_iff] at small
        omega
  · have idle : framework.makePublisher answers = framework := by
      unfold Framework.makePublisher
      exact if_neg makes
    rw [idle]
    refine iff_of_true ⟨fun has none_ => absurd ⟨has, none_⟩ makes, ?_⟩
      fun has none_ => absurd ⟨has, none_⟩ makes
    intro returned
    cases published : framework.sysPublisher with
    | none => exact absurd published (sysCtrlRet_iff.mp returned).2
    | some msg =>
        obtain ⟨bytes, same, enough⟩ := kept.large msg published
        exact ⟨bytes, by rw [same], enough⟩

theorem frameworkPromise_iff (kept : FrameworkKept framework)
    (call : FrameworkCall μ) :
    FrameworkPromise sysCtrlPrioQueue event framework call ↔
      FrameworkClean sysCtrlPrioQueue framework call := by
  cases call with
  | createQueue queueLen answers =>
      dsimp only [FrameworkPromise, FrameworkClean]
      rw [(kept.fresh _ le_rfl).1]
      have straight := sysQueueBuilt_straight true answers
      exact straight.trans ⟨fun cleans => cleans rfl, fun clean _ => clean⟩
  | send owner msg addr =>
      refine iff_of_true ?_ trivial
      intro size queue found
      obtain ⟨_, _, after, _, played, _⟩ := prioEventSend_kept event
        (kept.queues owner size queue found) msg addr
      rw [played]
      rfl
  | recv owner =>
      refine iff_of_true ?_ trivial
      intro size queue found
      obtain ⟨after, played, _⟩ :=
        prioEventRecv_kept (kept.queues owner size queue found)
      rw [played]
      rfl
  | deinit owner =>
      dsimp only [FrameworkPromise, FrameworkClean]
      cases found : framework.queues owner with
      | none => exact iff_of_true nofun nofun
      | some sized =>
          obtain ⟨size, queue⟩ := sized
          have whole := prioEventQueueDeinit_iff
            (kept.queues owner size queue found)
          constructor
          · intro promise other made same
            cases same
            exact whole.mp (promise rfl)
          · intro clean _
            exact whole.mpr (clean size queue rfl)
  | sysCtrlCreate queue publisher =>
      dsimp only [FrameworkPromise, FrameworkClean]
      have behind := makeQueue_kept sysCtrlPrioQueue kept queue
      have made := makePublisher_iff behind publisher
      rw [makeQueue_made, makeQueue_sysPublisher] at made
      rw [(kept.fresh _ le_rfl).1, sysQueueBuilt_straight]
      rw [makeQueue_made, makeQueue_sysPublisher, made]

theorem frameworkStep_kept (kept : FrameworkKept framework)
    (call : FrameworkCall μ)
    (clean : FrameworkClean sysCtrlPrioQueue framework call) :
    FrameworkKept (frameworkStep sysCtrlPrioQueue event framework call) := by
  cases call with
  | createQueue queueLen answers =>
      exact createQueue_kept sysCtrlPrioQueue event kept queueLen answers clean
  | send owner msg addr =>
      exact send_kept sysCtrlPrioQueue event kept owner msg addr
  | recv owner => exact recv_kept sysCtrlPrioQueue event kept owner
  | deinit owner => exact deinit_kept sysCtrlPrioQueue event kept owner
  | sysCtrlCreate queue publisher =>
      have cleans := clean.2
      rw [← makeQueue_made, ← makeQueue_sysPublisher] at cleans
      exact makePublisher_kept (makeQueue_kept sysCtrlPrioQueue kept queue)
        publisher cleans

end Framework

/-- Every call of a run of the event framework keeps its resources straight if
and only if every one is clean. -/
theorem framework_straight (sysCtrlPrioQueue : Bool) (event : μ → Nat)
    (calls : List (FrameworkCall μ)) :
    Along (frameworkStep sysCtrlPrioQueue event)
        (FrameworkPromise sysCtrlPrioQueue event) (Framework.boot μ) calls ↔
      Along (frameworkStep sysCtrlPrioQueue event)
        (FrameworkClean sysCtrlPrioQueue) (Framework.boot μ) calls := by
  apply along_iff_along_of_kept _ _ FrameworkKept
  · intro framework call kept clean
    exact frameworkStep_kept sysCtrlPrioQueue event kept call clean
  · intro framework call kept
    exact frameworkPromise_iff sysCtrlPrioQueue event kept call
  · exact frameworkKept_boot

/-- No semaphore for the list. -/
def semaphoreFails : QueueAnswers where
  queue := true
  list := true
  sem := false
  lock := true
  pool := true
  osQueue := true

theorem semaphoreFails_freed_twice :
    ¬ Along (frameworkStep false (id : Nat → Nat)) (FrameworkPromise false id)
      (Framework.boot Nat) [.createQueue 4 semaphoreFails] := by
  rintro ⟨straight, _⟩
  have plays := straight.plays
  revert plays
  decide

end XR872.SysCtrl
