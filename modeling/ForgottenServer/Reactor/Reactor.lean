import Mathlib

/-! # The task reactor

`TaskReactor`: any thread puts tasks and cancellations in the inboxes, and one thread runs `runOnce` again and again.
A step of the machine is a call, or the part of `runOnce` between two points where other calls can come in: another
thread's calls, or those of the callback that is running. The steps of `runOnce` carry the clock readings they take.

The heap is kept as a list in the order in which its tasks are popped. The sequence numbers, 64 bits wide, do not wrap;
the identifiers, 32 bits wide, do. -/

namespace ForgottenServer.Reactor

/-- `steady_clock::time_point::max()`, in nanoseconds. -/
def distantFuture : Int := 2 ^ 63 - 1

/-- `std::chrono::milliseconds`, in the ticks of the clock. -/
def milliseconds (count : Int) : Int := count * 1000000

/-- `function` tells whether there is a callback. The texts for the log are left out. -/
structure Task where
  fireAt : Int
  deadline : Int
  identifier : Nat := 0
  sequence : Nat
  function : Bool
  deriving DecidableEq, Repr

def Task.hasExpired (task : Task) (now : Int) : Bool := task.deadline != distantFuture && decide (task.deadline ≤ now)

def taskComesAfter (lhs rhs : Task) : Bool :=
  if lhs.fireAt ≠ rhs.fireAt then lhs.fireAt > rhs.fireAt else lhs.sequence > rhs.sequence

/-- The order of the heap and of the ready list. -/
def NotAfter (lhs rhs : Task) : Prop := taskComesAfter lhs rhs = false

instance : DecidableRel NotAfter := fun lhs rhs => inferInstanceAs (Decidable (taskComesAfter lhs rhs = false))

/-- The locals of `executeReadyTasks`. -/
structure Cycle where
  readyTasks : List Task
  index : Nat := 0
  tasksExecuted : Nat := 0
  cycleStart : Int

/-- Where the thread that runs `runOnce` is. -/
inductive Phase where
  | waiting
  | inboxDrained (readyTasks : List Task)
  | heapDrained (readyTasks : List Task)
  | looping (cycle : Cycle)
  | calling (cycle : Cycle)

structure State where
  sendInbox : List Task := []
  scheduleInbox : List Task := []
  cancelInbox : List Nat := []
  cancelled : Finset Nat := ∅
  activeIdentifiers : Finset Nat := ∅
  taskHeap : List Task := []
  nextIdentifier : Nat := 0
  nextSequence : Nat := 0
  running : Bool := false
  maxTasksPerCycle : Nat := 0
  timeBudget : Int := 0
  maxInboxSize : Nat := 100000
  phase : Phase := .waiting

namespace State

/-! ## Calls -/

def isFull (s : State) (inbox : Nat) : Bool := decide (s.maxInboxSize > 0) && decide (inbox ≥ s.maxInboxSize)

/-- The task of a `send` with a deadline. -/
def sentTask (s : State) (callback : Bool) (deadline now : Int) : Task :=
  { fireAt := now, deadline, sequence := s.nextSequence, function := callback }

def sendUntil (s : State) (callback : Bool) (deadline now : Int) : Bool × State :=
  if !callback || !s.running then (false, s)
  else
    let task := s.sentTask callback deadline now
    let s := { s with nextSequence := s.nextSequence + 1 }
    if s.isFull s.sendInbox.length then (false, s) else (true, { s with sendInbox := s.sendInbox ++ [task] })

/-- The deadline of a `send` with or without an expiration time. -/
def deadlineOf (expirationTime : Option Int) (now : Int) : Int :=
  match expirationTime with
  | none => distantFuture
  | some time => now + milliseconds time

/-- The overload for a 32-bit expiration time passes zero as none. -/
def send (s : State) (expirationTime : Option Int) (callback : Bool) (now : Int) : Bool × State :=
  s.sendUntil callback (deadlineOf expirationTime now) now

/-- The next identifier: zero is left out. -/
def issue (s : State) : Nat :=
  let identifier := (s.nextIdentifier + 1) % 2 ^ 32
  if identifier = 0 then 1 else identifier

def scheduledTask (s : State) (delay : Int) (callback : Bool) (now : Int) : Task :=
  { fireAt := now + milliseconds delay, deadline := distantFuture, identifier := s.issue, sequence := s.nextSequence,
    function := callback }

def schedule (s : State) (delay : Int) (callback : Bool) (now : Int) : Nat × State :=
  if !callback || !s.running then (0, s)
  else
    let task := s.scheduledTask delay callback now
    let s := { s with nextIdentifier := s.issue, nextSequence := s.nextSequence + 1 }
    if s.isFull s.scheduleInbox.length then (0, s)
    else (task.identifier, { s with scheduleInbox := s.scheduleInbox ++ [task] })

def cancel (s : State) (taskIdentifier : Nat) : State :=
  if taskIdentifier = 0 || !s.running then s
  else if s.isFull s.cancelInbox.length then s
  else { s with cancelInbox := s.cancelInbox ++ [taskIdentifier] }

/-! ## One cycle -/

/-- `push_heap`. -/
def pushHeap (taskHeap : List Task) (task : Task) : List Task := taskHeap.orderedInsert NotAfter task

def drainInbox (s : State) (now : Int) : State :=
  let active := s.activeIdentifiers ∪ (s.scheduleInbox.map (·.identifier)).toFinset
  { s with
    sendInbox := []
    scheduleInbox := []
    cancelInbox := []
    activeIdentifiers := active
    taskHeap := s.scheduleInbox.foldl pushHeap s.taskHeap
    cancelled := s.cancelled ∪ s.cancelInbox.toFinset.filter (· ∈ active)
    phase := .inboxDrained (s.sendInbox.filter fun task => !task.hasExpired now) }

end State

/-- What `drainReadyTasks` leaves and what it takes out: `lost` are the tasks it drops. -/
structure Popped where
  taskHeap : List Task
  activeIdentifiers : Finset Nat
  cancelled : Finset Nat
  readyTasks : List Task := []
  lost : List Task := []

def popDue (now : Int) : List Task → Finset Nat → Finset Nat → Popped
  | [], active, cancelled => { taskHeap := [], activeIdentifiers := active, cancelled }
  | task :: taskHeap, active, cancelled =>
    if task.fireAt ≤ now then
      let popped := popDue now taskHeap (active.erase task.identifier) (cancelled.erase task.identifier)
      if task.identifier ∈ cancelled ∨ task.hasExpired now = true then { popped with lost := task :: popped.lost }
      else { popped with readyTasks := task :: popped.readyTasks }
    else { taskHeap := task :: taskHeap, activeIdentifiers := active, cancelled }

namespace State

def drainReadyTasks (s : State) (readyTasks : List Task) (now : Int) : State :=
  let popped := popDue now s.taskHeap s.activeIdentifiers s.cancelled
  { s with
    taskHeap := popped.taskHeap
    activeIdentifiers := popped.activeIdentifiers
    cancelled := popped.cancelled
    phase := .heapDrained (readyTasks ++ popped.readyTasks) }

/-- The end of `executeReadyTasks`: the tasks that are left are deferred. -/
def defer (s : State) (cycle : Cycle) : State :=
  { s with sendInbox := s.sendInbox ++ cycle.readyTasks.drop cycle.tasksExecuted, phase := .waiting }

def limitReached (s : State) (cycle : Cycle) : Bool :=
  decide (s.maxTasksPerCycle > 0) && decide (cycle.tasksExecuted ≥ s.maxTasksPerCycle)

/-- The head of the loop. -/
def nextTask (s : State) (cycle : Cycle) : State :=
  match cycle.readyTasks[cycle.index]? with
  | none => s.defer cycle
  | some task =>
    if !task.function then
      { s with
        phase := .looping { cycle with index := cycle.index + 1, tasksExecuted := cycle.tasksExecuted + 1 } }
    else if s.limitReached cycle then s.defer cycle
    else { s with phase := .calling cycle }

/-- After the callback, whether it returned or threw. -/
def taskDone (s : State) (cycle : Cycle) (taskEnd : Int) : State :=
  let cycle := { cycle with tasksExecuted := cycle.tasksExecuted + 1 }
  if s.timeBudget > 0 ∧ taskEnd - cycle.cycleStart ≥ milliseconds s.timeBudget then s.defer cycle
  else { s with phase := .looping { cycle with index := cycle.index + 1 } }

end State

/-! ## Steps -/

/-- How a callback ends. -/
inductive Outcome where
  | returned
  | exception
  | nonStandard

inductive Event where
  | start
  | shutdown
  | setMaxTasksPerCycle (maxTasks : Nat)
  | setTimeBudget (budget : Int)
  | setMaxInboxSize (maxSize : Nat)
  | send (expirationTime : Option Int) (callback : Bool) (now : Int)
  | schedule (delay : Int) (callback : Bool) (now : Int)
  | cancel (taskIdentifier : Nat)
  | drainInbox (now : Int)
  | drainReadyTasks (now : Int)
  | executeReadyTasks (now : Int)
  | nextTask (now : Int)
  | taskDone (outcome : Outcome) (now : Int)

/-- A part of `runOnce` that is not next does nothing. -/
def step (s : State) : Event → State
  | .start => { s with running := true }
  | .shutdown => { s with running := false }
  | .setMaxTasksPerCycle maxTasks => { s with maxTasksPerCycle := maxTasks }
  | .setTimeBudget budget => { s with timeBudget := budget }
  | .setMaxInboxSize maxSize => { s with maxInboxSize := maxSize }
  | .send expirationTime callback now => (s.send expirationTime callback now).2
  | .schedule delay callback now => (s.schedule delay callback now).2
  | .cancel taskIdentifier => s.cancel taskIdentifier
  | .drainInbox now =>
    match s.phase with
    | .waiting => s.drainInbox now
    | _ => s
  | .drainReadyTasks now =>
    match s.phase with
    | .inboxDrained readyTasks => s.drainReadyTasks readyTasks now
    | _ => s
  | .executeReadyTasks now =>
    match s.phase with
    | .heapDrained readyTasks =>
      { s with phase := .looping { readyTasks := readyTasks.insertionSort NotAfter, cycleStart := now } }
    | _ => s
  | .nextTask _ =>
    match s.phase with
    | .looping cycle => s.nextTask cycle
    | _ => s
  | .taskDone _ now =>
    match s.phase with
    | .calling cycle => s.taskDone cycle now
    | _ => s

/-- The clock reading that a step takes. -/
def Event.reading : Event → Option Int
  | .send _ _ now | .schedule _ _ now | .drainInbox now | .drainReadyTasks now | .executeReadyTasks now
  | .nextTask now | .taskDone _ now => some now
  | _ => none

end ForgottenServer.Reactor
