import Laplace.Machine.Run
import Laplace.Model.Runtime

/-! # Generated harnesses

A test body is the tape of what it does at the boundaries of the probe: a deterministic body takes
the same tape in every run. A tape does not say which thread the scheduler picks or what the body
computes in between, and every tape is a possible body, so the results hold for all schedules. A
step that the state does not allow, or that exhausts an id counter (the runtime panics), has no
successor.

The harnesses of `verify` begin a session, install their hooks, set the thread ids and finish the
session; `axiom_target` and `laplace_byoc_test` harnesses collect through the legacy sinks. Tests of
one process run one after another, each on fresh threads. A thread that a test leaves running goes on
among the later tests: it has its own names, and shares with them the hooks, the counters, the sinks,
the session and the primitives in statics.

The initialiser of a static runs once in a process. Its steps are marked in the tape of every body that
forces the static, and are taken in the first one alone.
-/

namespace Laplace.Model.Probe

open Laplace.Machine
open Laplace.Model.Runtime (saturatingAdd)

inductive TaskPollOutcome where
  | pending
  | ready
  | panicked
deriving DecidableEq, Repr

/-- The task limit of a `TaskSet`. -/
def maxModelTasks : ℕ := 16

inductive Step where
  /-- `ModelMutex::new`, `ModelRwLock::new`, or the first use of such a static. -/
  | newLock (lock : Handle)
  /-- An async primitive takes its resource id. -/
  | newAsync (resource : Handle)
  /-- An acquisition future, a channel operation or a broadcast receiver is made. -/
  | newWaiter (waiter : ℕ)
  /-- `lock`, `read`, `write`, or a `try_` form that succeeded. -/
  | lock (thread : Thread) (lock : Handle) (guard : ℕ)
  /-- The guard is dropped; `std::thread::panicking` is read there. -/
  | unlock (thread : Thread) (guard : ℕ) (panicking : Bool)
  | asyncReport (thread : Thread) (report : AsyncReport Handle ℕ)
  /-- A report of a semaphore, through `hook_with_created`. -/
  | semaphoreReport (thread : Thread) (permits : ℕ) (report : AsyncReport Handle ℕ)
  /-- A tracked primitive reads the thread id that it keeps. -/
  | trackedCall (thread : Thread) (call : ℕ)
  | trackedEmit (thread : Thread) (call : ℕ) (kind : TrackedKind) (resource : String)
  /-- `TaskSet::spawn`. -/
  | register (thread : Thread)
  | spawnTask (thread : Thread) (task : ℕ)
  | pollStarted (thread : Thread) (task : TaskRef)
  | pollCompleted (thread : Thread) (outcome : TaskPollOutcome)
  /-- The executor drops a task's future. -/
  | dropTask (task : TaskRef)
  | joinRequested (thread : Thread) (task : TaskRef)
  | joinResolved (thread : Thread) (task : TaskRef)
deriving DecidableEq, Repr

namespace State

def resourceId (state : State) (resource : Handle) : UInt64 := (state.asyncs.table resource).getD 0

def waiterId (state : State) (waiter : ℕ) : UInt64 := (state.waiters.table waiter).getD 0

/-- Every name in the report has its id. -/
def resolves (state : State) (report : AsyncReport Handle ℕ) : Bool :=
  (state.asyncs.table report.resource).isSome &&
    report.waiters.all fun waiter => (state.waiters.table waiter).isSome

/-- A call of a probe async hook. -/
def report (state : State) (thread : Thread) (report : AsyncReport Handle ℕ) : State :=
  state.emitAs thread report.acquisition fun id =>
    (report.map state.resourceId state.waiterId).event id

/-- An acquisition is begun by the first report of its waiter. -/
def beginReport (state : State) (thread : Thread) (report : AsyncReport Handle ℕ) : State :=
  match report.acquisition with
  | some acquisition => state.begin thread acquisition
  | none => state

/-- `hook_with_created`: the first hooked boundary of a semaphore reports its creation. -/
def reportCreated (state : State) (thread : Thread) (permits : ℕ) (resource : Handle) : State :=
  if state.createdReported resource then state
  else
    ({ state with createdReported := Function.update state.createdReported resource true } : State).report
      thread (.semaphoreCreated resource permits)

/-- `ProbeTaskHook::poll_started`. -/
def pollStartedHook (state : State) (thread : Thread) (id attempt : UInt64) : State :=
  ({ state with
    currentTaskId := Function.update state.currentTaskId thread (some id)
    probeThreadId := Function.update state.probeThreadId thread (some id) } : State).emit
      thread none (.taskPolled id attempt)

/-- `ProbeTaskHook::poll_completed`. -/
def pollCompletedHook (state : State) (thread : Thread) (id attempt : UInt64)
    (outcome : TaskPollOutcome) : State :=
  let emitted := match outcome with
    | .pending => state.emit thread none (.futurePending id none attempt)
    | .ready => state.emit thread none (.futureReady id none attempt)
    | .panicked => state
  { emitted with currentTaskId := Function.update emitted.currentTaskId thread none }

/-- `ProbeTaskHook::task_completed`. -/
def taskCompletedHook (state : State) (thread : Thread) (id : UInt64) : State :=
  ({ state with currentTaskId := Function.update state.currentTaskId thread none } : State).emit
    thread none (.taskCompleted id)

/-- What `ObservedTask::poll` reports once the inner poll has returned or unwound. -/
def pollEndedHooks (state : State) (thread : Thread) (id attempt : UInt64)
    (outcome : TaskPollOutcome) : State :=
  let completed := state.pollCompletedHook thread id attempt outcome
  match outcome with
  | .pending => completed
  | .ready | .panicked => completed.taskCompletedHook thread id

/-- The join callbacks, which report only inside a poll. -/
def joinHook (state : State) (thread : Thread) (event : UInt64 → ProbeEvent) : State :=
  match state.currentTaskId thread with
  | some current => state.emit thread none (event current)
  | none => state

def setTask (state : State) (task : TaskRef) (value : Task) : State :=
  { state with tasks := Function.update state.tasks task (some value) }

end State

/-- The id under which a task is observed, if it is wrapped and the observer is installed. -/
def observedId (state : State) (task : TaskRef) (value : Task) : Option UInt64 :=
  if state.taskHook && value.observed then state.taskId task else none

/-- A join handle reports to the observer with the joined task's id. -/
def join (state : State) (thread : Thread) (task : TaskRef) (event : UInt64 → UInt64 → ProbeEvent) :
    Option State :=
  match state.tasks task with
  | some value =>
      match observedId state task value with
      | some id => some (state.joinHook thread fun current => event current id)
      | none => some state
  | none => none

/-- One boundary of a body. -/
def step (state : State) : Step → Option State
  | .newLock lock => (state.locks.ensure lock).map fun locks => { state with locks }
  | .newAsync resource => (state.asyncs.ensure resource).map fun asyncs => { state with asyncs }
  | .newWaiter waiter => (state.waiters.ensure waiter).map fun waiters => { state with waiters }
  | .lock thread lock guard =>
      match state.locks.table lock, state.owner (.guard guard) with
      | some id, none =>
          let held := { state.begin thread (.guard guard) with
            guards := Function.update state.guards guard (some lock) }
          some (if state.lockHook then
            held.emitAs thread (some (.guard guard)) (.lockAcquired · (resourceName id)) else held)
      | _, _ => none
  | .unlock thread guard panicking =>
      match state.guards guard with
      | some lock =>
          match state.locks.table lock with
          | some id =>
              let freed := { state with guards := Function.update state.guards guard none }
              some (if state.lockHook && !panicking then
                freed.emitAs thread (some (.guard guard)) (.lockReleased · (resourceName id)) else freed)
          | none => none
      | none => none
  | .asyncReport thread report =>
      if state.resolves report then
        some (if state.asyncHooks then (state.beginReport thread report).report thread report
          else state.beginReport thread report)
      else none
  | .semaphoreReport thread permits report =>
      if state.resolves report then
        some (if state.asyncHooks then
          ((state.beginReport thread report).reportCreated thread permits report.resource).report
            thread report
          else state.beginReport thread report)
      else none
  | .trackedCall thread call =>
      match state.trackedIds call, state.owner (.tracked call) with
      | none, none =>
          let (id, read) := (state.begin thread (.tracked call)).currentThreadId thread
          some { read with trackedIds := Function.update read.trackedIds call (some id) }
      | _, _ => none
  | .trackedEmit thread call kind resource =>
      (state.trackedIds call).map fun id =>
        state.emit thread (some (.tracked call)) (kind.event id resource)
  | .register thread =>
      if state.registered < maxModelTasks then
        let pushed := { state.setTask (.registered state.registered) ⟨true, 0, false, false⟩ with
          registered := state.registered + 1 }
        some (if state.taskHook then
          pushed.emit thread none (.taskSpawned (UInt64.ofNat state.registered) none none) else pushed)
      else none
  | .spawnTask thread task =>
      match state.tasks (.dynamic task) with
      | some _ => none
      | none =>
          if state.taskHook then
            (state.dynamicTasks.ensure task).bind fun dynamicTasks =>
              (dynamicTasks.table task).map fun id =>
                ({ state.setTask (.dynamic task) ⟨true, 0, false, false⟩ with dynamicTasks } : State).emit
                  thread none (.taskSpawned id (state.currentTaskId thread) none)
          else some (state.setTask (.dynamic task) ⟨false, 0, false, false⟩)
  | .pollStarted thread task =>
      match state.polling thread, state.tasks task with
      | none, some value =>
          if value.finished || value.dropped then none
          else
            let polled := { state.setTask task { value with attempt := saturatingAdd value.attempt 1 } with
              polling := Function.update state.polling thread (some ⟨task, value.attempt⟩)
              lastPolled := Function.update state.lastPolled thread (some task) }
            match observedId state task value with
            | some id => some (polled.pollStartedHook thread id value.attempt)
            | none => some polled
      | _, _ => none
  | .pollCompleted thread outcome =>
      match state.polling thread with
      | some poll =>
          match state.tasks poll.task with
          | some value =>
              let reported := match observedId state poll.task value with
                | some id => state.pollEndedHooks thread id poll.attempt outcome
                | none => state
              some { reported.setTask poll.task { value with finished := outcome != .pending } with
                polling := Function.update reported.polling thread none }
          | none => none
      | none => none
  | .dropTask task =>
      (state.tasks task).map fun value => state.setTask task { value with dropped := true }
  | .joinRequested thread task => join state thread task .taskJoinRequested
  | .joinResolved thread task => join state thread task .taskJoinResolved

/-- The verify harnesses; `threads` takes between one and eight. -/
inductive Mode where
  | threads (count : ℕ) (valid : 1 ≤ count ∧ count ≤ 8)
  | scenario
  | tasks
deriving DecidableEq, Repr

/-- The hook families a body can reach. -/
inductive Family where
  | lock
  | task
  | async
deriving DecidableEq, Repr

/-- What the harness installs after `begin`. Hooks are never cleared. -/
def Mode.installs : Mode → Family → Bool
  | .threads .., _ => false
  | .scenario, family => family == .lock
  | .tasks, _ => true

/-- The ids set explicitly: thread 0 is the test thread, the workers of `threads` come after it. -/
def Mode.threadIds : Mode → Thread → Option UInt64
  | .threads count _, thread =>
      if 1 ≤ thread ∧ thread ≤ count then some (UInt64.ofNat (thread - 1)) else none
  | .scenario, thread | .tasks, thread => if thread = 0 then some 0 else none

/-- What a body does at a boundary. -/
inductive Boundary where
  | step (taken : Step)
  /-- A step of the initialiser of a static. -/
  | initializing (static : ℕ) (taken : Step)
  /-- The initialiser has returned. -/
  | initialized (static : ℕ)
deriving DecidableEq, Repr

/-- An initialiser that has returned is not run again. -/
def boundary (state : State) : Boundary → Option State
  | .step taken => step state taken
  | .initializing static taken => if state.initialized static then some state else step state taken
  | .initialized static => some { state with initialized := Function.update state.initialized static true }

def Handle.isShared : Handle → Bool
  | .shared _ => true
  | .own _ => false

/-- A channel, a broadcast channel or a cell in a static is made by the static's initialiser. -/
def Boundary.placed : Boundary → Bool
  | .step (.asyncReport _ (.channelCreated resource _)) | .step (.asyncReport _ (.broadcastCreated resource _))
  | .step (.asyncReport _ (.cellCreated resource)) => !resource.isShared
  | _ => true

structure Verify where
  mode : Mode
  body : List Boundary
  placed : body.all Boundary.placed = true
deriving DecidableEq, Repr

/-- What happens next in a process: a step of the running test, or one of a thread that an earlier test, by its
number, has left running. -/
inductive Move (Own : Type) where
  | own (taken : Own)
  | outliving (test : ℕ) (taken : Boundary)
deriving DecidableEq, Repr

def Move.own? {Own : Type} : Move Own → Option Own
  | .own taken => some taken
  | .outliving .. => none

/-- A run of a harness among the threads that outlived earlier tests. -/
structure Verify.Schedule (harness : Verify) where
  moves : List (Move Boundary)
  own : moves.filterMap Move.own? = harness.body

/-- The harness up to its body: `begin` resets the implicit ids and opens the session. Threads that
outlived earlier sessions still hold the ids they had. -/
def start (process : Process) (mode : Mode) (held : Thread → Option UInt64) : State :=
  { process with
    lockHook := process.lockHook || mode.installs .lock
    taskHook := process.taskHook || mode.installs .task
    asyncHooks := process.asyncHooks || mode.installs .async
    nextImplicitThreadId := 0
    session := some []
    probeThreadId := fun thread => (mode.threadIds thread).or (held thread) }

/-- What a finished test leaves: the counters, the hooks, and the primitives in statics. -/
def State.leave (state : State) : Process :=
  { state.toProcess with
    locks := state.locks.retain Handle.isShared
    asyncs := state.asyncs.retain Handle.isShared
    waiters := state.waiters.retain fun _ => false
    dynamicTasks := state.dynamicTasks.retain fun _ => false
    createdReported := fun resource => resource.isShared && state.createdReported resource }

/-- `CaptureSession::finish`. -/
def State.finish (state : State) : List ProbeEvent := (state.session.getD []).map Entry.event

/-- The names of `own`, in the process as `wide` has it. -/
def State.within (own wide : State) : State :=
  { own with
    lockHook := wide.lockHook
    taskHook := wide.taskHook
    asyncHooks := wide.asyncHooks
    globalProbeSender := wide.globalProbeSender
    nextSink := wide.nextSink
    nextImplicitThreadId := wide.nextImplicitThreadId
    locks := own.locks.within wide.locks Handle.isShared
    asyncs := own.asyncs.within wide.asyncs Handle.isShared
    waiters := own.waiters.within wide.waiters fun _ => false
    dynamicTasks := own.dynamicTasks.within wide.dynamicTasks fun _ => false
    createdReported := fun resource =>
      if resource.isShared then wide.createdReported resource else own.createdReported resource
    initialized := wide.initialized
    session := wide.session }

/-- A test that runs, and what the threads of the tests before it still have. -/
structure Running where
  state : State
  outliving : List State

def Running.step {Own : Type} (ownStep : State → Own → Option State) (running : Running) :
    Move Own → Option Running
  | .own taken => (ownStep running.state taken).map fun state => { running with state }
  | .outliving test taken =>
      running.outliving[test]?.bind fun rest =>
        (boundary (rest.within running.state) taken).map fun next =>
          { state := running.state.within next, outliving := running.outliving.set test next }

/-- A process between tests. -/
structure Past where
  process : Process := {}
  outliving : List State := []

/-- The threads that a test has not waited for stay. -/
def Running.leave (running : Running) : Past := ⟨running.state.leave, running.outliving ++ [running.state]⟩

/-- A verify harness on fresh threads: the captured events and the process it leaves. -/
def Verify.run (harness : Verify) (past : Past) (schedule : harness.Schedule) :
    Option (List ProbeEvent × Past) :=
  (run? (Running.step boundary) ⟨start past.process harness.mode fun _ => none, past.outliving⟩
    schedule.moves).map fun final => (final.state.finish, final.leave)

/-- The body of a legacy harness, with the calls on the legacy sinks that it makes. -/
inductive LegacyStep where
  /-- A worker of `axiom_target` or a `byoc_thread!` registers its sink and its id. -/
  | register (thread : Thread) (id : UInt64)
  | clear (thread : Thread)
  | body (taken : Boundary)
deriving DecidableEq, Repr

/-- `clear_probe_sender`. -/
def State.clearProbeSender (state : State) (thread : Thread) : State :=
  { state with
    probeSender := Function.update state.probeSender thread none
    globalProbeSender := none }

def legacyStep (sink : Sink) (state : State) : LegacyStep → Option State
  | .register thread id =>
      some { state with
        probeSender := Function.update state.probeSender thread (some sink)
        nextImplicitThreadId := 0
        globalProbeSender := some sink
        probeThreadId := Function.update state.probeThreadId thread (some id) }
  | .clear thread => some (state.clearProbeSender thread)
  | .body taken => boundary state taken

/-- The body of a legacy harness, from the channel it creates. -/
def runLegacy (past : Past) (moves : List (Move LegacyStep)) : Option Running :=
  run? (Running.step (legacyStep past.process.nextSink))
    ⟨{ past.process with nextSink := past.process.nextSink + 1 }, past.outliving⟩ moves

inductive Test where
  | verify (harness : Verify) (schedule : harness.Schedule)
  | axiomTarget (moves : List (Move LegacyStep))
  | byocTest (moves : List (Move LegacyStep))
  /-- No test runs, and threads of earlier ones go on. -/
  | pause (moves : List (Move Empty))

/-- A test that reaches its end. `axiom_target` clears the legacy slot before it drains its channel;
`laplace_byoc_test` does not, and drains forever while the slot still holds its own sender. Both drain
until no thread has a sender any more, so that no thread that goes on has a legacy sink. -/
def Test.run (past : Past) : Test → Option Past
  | .verify harness schedule => (harness.run past schedule).map Prod.snd
  | .axiomTarget moves => (runLegacy past moves).map fun final =>
      ({ final with state := final.state.clearProbeSender 0 } : Running).leave
  | .byocTest moves =>
      (runLegacy past moves).bind fun final =>
        if final.state.globalProbeSender = some past.process.nextSink then none else some final.leave
  | .pause moves =>
      (run? (Running.step fun _ => Empty.elim) ⟨{ past.process with }, past.outliving⟩ moves).map fun final =>
        ⟨final.state.toProcess, final.outliving⟩

/-- The tests of one process, in order. -/
def runTests : Past → List Test → Option Past := run? Test.run

end Laplace.Model.Probe
