/-
What the construction of the event framework acquires and releases.

Each function is the list of its effects on the parts of one construction, given
which of its allocations and creations succeed. A null pointer that is
dereferenced ends the list.
-/

import XR872.Library.Resources
import XR872.Library.Run
import XR872.SysCtrl.EventQueue

namespace XR872.SysCtrl

open Circles
open Resources
open Runs

/-- The parts of a queue, with the copies of its messages, and of a
publisher. -/
inductive Part where
  | queue
  | list
  | sem
  | lock
  | pool
  | osQueue
  | copy (addr : Nat)
  | publisher
  | publisherFactory
  | publisherLock
  | looper
  | looperFactory
  | msg
  | thread
deriving DecidableEq

/-- A construction: whether it answers with an object, and what it did. -/
structure Built where
  made : Bool
  effects : List (Effect Part)

/-! ### Queues -/

structure QueueAnswers where
  queue : Bool
  list : Bool
  sem : Bool
  lock : Bool
  pool : Bool
  osQueue : Bool

/-- The label `failed` of `sorted_list_init`. -/
def sortedListInitFailed (vec ret1 ret2 : Bool) : List (Effect Part) :=
  (if vec then [.release .pool] else []) ++
    (if ret1 then [.release .sem] else []) ++
    (if ret2 then [.release .lock] else []) ++ [.release .list]

def sortedListInitBuilt (answers : QueueAnswers) : Built :=
  if ¬ answers.sem then
    { made := false
      effects := [.use (some .list)] ++ sortedListInitFailed false false false }
  else if ¬ answers.lock then
    { made := false
      effects := [.use (some .list), .acquire .sem] ++
        sortedListInitFailed false true false }
  else if ¬ answers.pool then
    { made := false
      effects := [.use (some .list), .acquire .sem, .acquire .lock] ++
        sortedListInitFailed false true true }
  else
    { made := true
      effects := [.use (some .list), .acquire .sem, .acquire .lock,
        .acquire .pool, .use (some .pool)] }

/-- The list is freed here once more when its initialization has failed. -/
def sortedListCreate (answers : QueueAnswers) : Built :=
  if ¬ answers.list then { made := false, effects := [] }
  else
    let init := sortedListInitBuilt answers
    { made := init.made
      effects := [.acquire .list, .use (some .list)] ++ init.effects ++
        (if init.made then [] else [.release .list]) }

def prioEventQueueBuilt (answers : QueueAnswers) : Built :=
  if ¬ answers.queue then { made := false, effects := [] }
  else
    let container := sortedListCreate answers
    { made := container.made
      effects := [.acquire .queue, .use (some .queue)] ++ container.effects ++
        (if container.made then [.use (some .queue)]
          else [.release .queue]) }

def normalEventQueueBuilt (answers : QueueAnswers) : Built :=
  if ¬ answers.queue then { made := false, effects := [] }
  else if ¬ answers.osQueue then
    { made := false
      effects := [.acquire .queue, .use (some .queue), .release .queue] }
  else
    { made := true
      effects := [.acquire .queue, .use (some .queue), .acquire .osQueue] }

def prioEventQueueDeinit : List (Effect Part) :=
  [.use (some .queue), .use (some .list), .release .sem, .release .lock,
    .use (some .list), .release .pool, .release .list, .release .queue]

/-! ### Messages -/

variable {size : Nat} {μ : Type}

/-- The arguments that the scan of `sorted_list_push` compares with. -/
def sortedListCompared (compare : Nat → Nat → Int) (list : SortedList size Nat)
    (arg : Nat) : Nat → Node size → List Nat
  | 0, _ => []
  | _ + 1, .head => []
  | _ + 1, .pool => []
  | fuel + 1, .buf index =>
      if 0 ≤ compare arg (list.args index) then [list.args index]
      else
        list.args index ::
          sortedListCompared compare list arg fuel (list.links.next (.buf index))

/-- The scan of a push, which has stored its argument before. -/
def sortedListPushCompared (compare : Nat → Nat → Int)
    (list : SortedList size Nat) (arg : Nat) : List Nat :=
  match list.links.next .pool with
  | .buf index =>
      let stored := { list with args := Function.update list.args index arg }
      sortedListCompared compare stored arg (size + 2) (stored.links.next .head)
  | _ => []

/-- The comparison of a send reads the events of both messages. -/
def prioEventSendEffects (event : μ → Nat) (queue : PrioEventQueue size μ)
    (msg : μ) (addr : Option Nat) : List (Effect Part) :=
  match addr with
  | none => [.use (some .queue)]
  | some newMsg =>
      if (queue.heap newMsg).isSome then [.use (some .queue)]
      else
        let heap := Function.update queue.heap newMsg (some msg)
        let before := fun left right =>
          decide (eventAt event heap left < eventAt event heap right)
        [.use (some .queue), .acquire (.copy newMsg),
            .use (some (.copy newMsg)), .use (some .list), .use (some .lock),
            .use (some .pool)] ++
          (if sortedListRoom queue.container then
            ((sortedListPushCompared (complareEventMsg before) queue.container
              newMsg).flatMap fun oldMsg =>
                [Part.copy newMsg, Part.copy oldMsg]).map
                  (fun part => .use (some part)) ++ [.use (some .sem)]
          else [.release (.copy newMsg)])

def prioEventRecvEffects (queue : PrioEventQueue size μ) :
    List (Effect Part) :=
  [.use (some .queue), .use (some .list), .use (some .sem)] ++
    (if queue.permits = 0 then []
    else
      match sortedListTake queue.container with
      | .node newMsg _ =>
          [.use (some .lock), .use (some .pool), .use (some (.copy newMsg)),
            .release (.copy newMsg)]
      | _ => [.use (some .lock)])

/-! ### Loopers and publishers -/

structure PublisherAnswers where
  publisher : Bool
  factory : Bool
  /-- Whether the value that `ret` happens to have when it was never set is
  `OS_OK`. -/
  unsetRet : Bool
  lock : Bool
  looper : Bool
  looperFactory : Bool
  msg : Bool
  spareMsg : Bool
  thread : Bool

/-- `sizeof(struct event_msg)`. -/
def eventMsgSize : Nat := 16

/-- `sizeof(struct sys_ctrl_msg)`. -/
def sysCtrlMsgSize : Nat := 20

def looperFactoryBuilt (answers : PublisherAnswers) : Built :=
  if ¬ answers.looper then { made := false, effects := [] }
  else if ¬ answers.looperFactory then
    { made := false
      effects := [.acquire .looper, .use (some .looper), .use (some .looper),
        .release .looper] }
  else
    { made := true
      effects := [.acquire .looper, .use (some .looper),
        .acquire .looperFactory, .use (some .looperFactory)] }

/-- A construction with the size of the message buffer of its looper. -/
structure BuiltLooper where
  made : Bool
  msg : Option Nat
  effects : List (Effect Part)

/-- `create_looper` behind `set_msg_size`, which left this buffer: one that
could not be allocated is replaced by one of the size of `event_msg`. -/
def createLooper (msg : Option Nat) (answers : PublisherAnswers) :
    BuiltLooper :=
  let spare := msg = none ∧ answers.spareMsg
  let msg := if spare then some eventMsgSize else msg
  let effects := [.use (some .looperFactory), .release .looperFactory,
      .use (some .looper)] ++ (if spare then [.acquire .msg] else [])
  if ¬ answers.thread then
    { made := false
      msg := msg
      effects := effects ++ (if msg.isSome then [.release .msg] else []) ++
        [.release .looper] }
  else
    { made := true
      msg := msg
      effects := effects ++ [.acquire .thread] }

/-- The factory is not tested before its functions are called. -/
def createPublisher (size : Nat) (answers : PublisherAnswers) : BuiltLooper :=
  let factory := looperFactoryBuilt answers
  let start := [.use (some .publisherFactory), .release .publisherFactory] ++
    factory.effects
  if ¬ factory.made then
    { made := false
      msg := none
      effects := start ++ [.use none] }
  else
    let msg := if answers.msg then some size else none
    let looper := createLooper msg answers
    let effects := start ++ [.use (some .looperFactory), .use (some .looper)] ++
      (if answers.msg then [.acquire .msg] else []) ++ looper.effects
    if looper.made then
      { made := true
        msg := looper.msg
        effects := effects ++ [.use (some .publisher)] }
    else
      { made := false
        msg := none
        effects := effects ++ [.release .publisherLock, .release .publisher] }

/-- The label `failed` of `publisher_factory_create`. -/
def publisherFactoryFailed (ret factory : Bool) : List (Effect Part) :=
  (if ret then [.release .publisherLock] else []) ++
    (if factory then [.release .publisherFactory] else []) ++
    [.release .publisher]

def publisherFactoryBuilt (answers : PublisherAnswers) : Built :=
  if ¬ answers.publisher then { made := false, effects := [] }
  else if ¬ answers.factory then
    { made := false
      effects := [.acquire .publisher, .use (some .publisher)] ++
        publisherFactoryFailed answers.unsetRet false }
  else if ¬ answers.lock then
    { made := false
      effects := [.acquire .publisher, .use (some .publisher),
        .acquire .publisherFactory, .use (some .publisherFactory)] ++
          publisherFactoryFailed false true }
  else
    { made := true
      effects := [.acquire .publisher, .use (some .publisher),
        .acquire .publisherFactory, .use (some .publisherFactory),
        .acquire .publisherLock, .use (some .publisher),
        .use (some .publisherFactory)] }

/-- The part of `sys_ctrl_create` that makes the publisher. -/
def sysPublisherBuilt (answers : PublisherAnswers) : BuiltLooper :=
  let factory := publisherFactoryBuilt answers
  if ¬ factory.made then
    { made := false
      msg := none
      effects := factory.effects ++ [.use none] }
  else
    let publisher := createPublisher sysCtrlMsgSize answers
    { publisher with
      effects := factory.effects ++ [.use (some .publisherFactory)] ++
        publisher.effects }

/-! ### The framework -/

/-- The constructions so far, the queues of the callers, what each construction
holds, and the two globals of `sys_ctrl.c`: of the publisher the size of the
message buffer of its looper. -/
structure Framework (μ : Type) where
  serial : Nat
  queues : Nat → Option (Sigma fun size => PrioEventQueue size μ)
  held : Nat → List Part
  sysQueue : Option Nat
  sysPublisher : Option (Option Nat)

def Framework.boot (μ : Type) : Framework μ :=
  { serial := 0
    queues := fun _ => none
    held := fun _ => []
    sysQueue := none
    sysPublisher := none }

/-- The effects on the parts of one construction. -/
def Framework.play (framework : Framework μ) (owner : Nat)
    (effects : List (Effect Part)) : Framework μ :=
  { framework with
    held := Function.update framework.held owner
      ((Resources.play (framework.held owner) effects).getD
        (framework.held owner)) }

/-- Calls are made on queues that exist. -/
inductive FrameworkCall (μ : Type) where
  | createQueue (queueLen : Nat) (answers : QueueAnswers)
  | send (owner : Nat) (msg : μ) (addr : Option Nat)
  | recv (owner : Nat)
  | deinit (owner : Nat)
  | sysCtrlCreate (queue : QueueAnswers) (publisher : PublisherAnswers)

/-- The queue of `sys_ctrl_create`: `SYS_CTRL_PRIO_QUEUE` decides its kind. -/
def sysQueueBuilt (sysCtrlPrioQueue : Bool) (answers : QueueAnswers) : Built :=
  if sysCtrlPrioQueue then prioEventQueueBuilt answers
  else normalEventQueueBuilt answers

def Framework.makeQueue (sysCtrlPrioQueue : Bool) (framework : Framework μ)
    (answers : QueueAnswers) : Framework μ :=
  if framework.sysQueue = none then
    let built := sysQueueBuilt sysCtrlPrioQueue answers
    { framework.play framework.serial built.effects with
      serial := framework.serial + 1
      sysQueue := if built.made then some framework.serial else none }
  else framework

def Framework.makePublisher (framework : Framework μ)
    (answers : PublisherAnswers) : Framework μ :=
  if framework.sysQueue ≠ none ∧ framework.sysPublisher = none then
    let built := sysPublisherBuilt answers
    { framework.play framework.serial built.effects with
      serial := framework.serial + 1
      sysPublisher := if built.made then some built.msg else none }
  else framework

/-- What `sys_ctrl_create` returns, from the globals it leaves. -/
def sysCtrlRet (framework : Framework μ) : Int :=
  if framework.sysQueue = none then -1
  else if framework.sysPublisher = none then -1
  else 0

def frameworkStep (sysCtrlPrioQueue : Bool) (event : μ → Nat)
    (framework : Framework μ) : FrameworkCall μ → Framework μ
  | .createQueue queueLen answers =>
      let built := prioEventQueueBuilt answers
      { framework.play framework.serial built.effects with
        serial := framework.serial + 1
        queues := Function.update framework.queues framework.serial
          (if built.made then some ⟨queueLen, prioEventQueueCreate queueLen μ⟩
          else none) }
  | .send owner msg addr =>
      match framework.queues owner with
      | none => framework
      | some ⟨size, queue⟩ =>
          match prioEventSend event queue msg addr with
          | none => framework
          | some (_, next) =>
              { framework.play owner
                  (prioEventSendEffects event queue msg addr) with
                queues := Function.update framework.queues owner
                  (some ⟨size, next⟩) }
  | .recv owner =>
      match framework.queues owner with
      | none => framework
      | some ⟨size, queue⟩ =>
          { framework.play owner (prioEventRecvEffects queue) with
            queues := Function.update framework.queues owner
              (some ⟨size, (prioEventRecv queue).2⟩) }
  | .deinit owner =>
      match framework.queues owner with
      | none => framework
      | some _ =>
          { framework.play owner prioEventQueueDeinit with
            queues := Function.update framework.queues owner none }
  | .sysCtrlCreate queue publisher =>
      (framework.makeQueue sysCtrlPrioQueue queue).makePublisher publisher

end XR872.SysCtrl
