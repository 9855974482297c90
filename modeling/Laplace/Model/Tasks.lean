import Laplace.Model.Runtime

/-! # Model tasks and their handles

`TaskSet` tasks, and what `spawn_task` does in its three modes: the future handed to tokio as it is, the future
observed on its way, and the future handed to an engine. A task is polled by its executor and joined through its
handle. The output of a task and its panic travel in a slot and a flag that the task and its handle share.

Tokio's part, and that of an engine's `TaskControl`, is what their documentation says: a task runs until its future
returns, panics, or an abort takes effect, and its handle is pending until then.
-/

namespace Laplace.Model.Tasks

open Laplace.Machine
open Laplace.Model.Runtime (Poll PollResult saturatingAdd)

/-- `TaskPollOutcome`. -/
inductive TaskPollOutcome where
  | pending
  | ready
  | panicked
deriving DecidableEq, Repr

/-- The calls of a `TaskObserverHook`. -/
inductive TaskEvent where
  | taskRegistered (task : UInt64)
  | dynamicTaskSpawned (task : UInt64)
  | pollStarted (task attempt : UInt64)
  | pollCompleted (task attempt : UInt64) (outcome : TaskPollOutcome)
  | taskCompleted (task : UInt64)
  | joinRequested (joined : UInt64)
  | joinResolved (joined : UInt64)
deriving DecidableEq, Repr

/-- Tokio's `JoinError`. -/
inductive JoinError where
  | cancelled
  | panic
deriving DecidableEq, Repr

inductive TaskControlState where
  | finished
  | cancelled
  | panicked
deriving DecidableEq, Repr

/-- `TaskJoinError`, by its kind. -/
inductive TaskJoinError where
  | cancelled
  | panic
deriving DecidableEq, Repr

inductive Effect (T Out : Type) where
  /-- Whether a task observer hook is installed. -/
  | taskObserverHook
  | report (event : TaskEvent)
  /-- Poll the future of the task under `catch_unwind`. -/
  | pollFuture
  /-- `*output.lock() = Some(value)`. -/
  | publish (value : T)
  /-- `output.lock().take()`. -/
  | takeOutput
  | storePanicked
  | loadPanicked
  /-- `TaskCompletion::complete`. -/
  | complete
  /-- `TaskCompletion::poll`. -/
  | pollCompletion
  /-- Poll tokio's `JoinHandle`. -/
  | pollJoin
  /-- `TaskControl::poll`. -/
  | pollControl
  /-- The executor is done with the future. -/
  | finish (result : Except JoinError Out)
  /-- The executor looks whether an abort has been requested, and drops the future then. -/
  | applyAbort
  | abort
  | panic (message : String)

abbrev Effect.Reply {T Out : Type} : Effect T Out → Type
  | .taskObserverHook | .loadPanicked | .pollCompletion | .applyAbort => Bool
  | .pollFuture => PollResult T
  | .takeOutput => Option T
  | .pollJoin => Poll (Except JoinError Out)
  | .pollControl => Poll TaskControlState
  | .report _ | .publish _ | .storePanicked | .complete | .finish _ | .abort => Unit
  | .panic _ => Empty

variable {T Out : Type}

abbrev TaskM (T Out : Type) := Program (Effect T Out) Effect.Reply

abbrev perform (effect : Effect T Out) : TaskM T Out effect.Reply := Program.perform effect

/-- A panic never returns. -/
def panic {α : Type} (message : String) : TaskM T Out α := .call (.panic message) Empty.elim

/-- `if let Some(hook) = hook.as_ref() { … }`. -/
def reportTo (hook : Bool) (event : TaskEvent) : TaskM T Out Unit :=
  if hook then perform (.report event) else pure ()

def outcomeOf : PollResult Unit → TaskPollOutcome
  | .pending => .pending
  | .ready _ => .ready
  | .panicked => .panicked

structure ObservedTask where
  task : UInt64
  /-- A `TaskSet` task has a completion; a dynamic one has none. -/
  completion : Bool
  attempt : UInt64 := 0
  finished : Bool := false
deriving DecidableEq, Repr

namespace ObservedTask

def withoutCompletion (task : UInt64) : ObservedTask := { task, completion := false }

/-- The end of a poll that found the task terminal. -/
def finish (hook : Bool) (self : ObservedTask) : TaskM T Out (Poll Unit × ObservedTask) := do
  if self.completion then perform .complete
  reportTo hook (.taskCompleted self.task)
  return (.ready (), { self with finished := true })

/-- `poll`. A panic of the future is contained. -/
def poll (future : TaskM T Out (PollResult Unit)) (self : ObservedTask) : TaskM T Out (Poll Unit × ObservedTask) := do
  if self.finished then return (.ready (), self)
  let attempt := self.attempt
  let self := { self with attempt := saturatingAdd attempt 1 }
  let hook ← perform .taskObserverHook
  reportTo hook (.pollStarted self.task attempt)
  let outcome := outcomeOf (← future)
  reportTo hook (.pollCompleted self.task attempt outcome)
  match outcome with
  | .pending => return (.pending, self)
  | .ready | .panicked => self.finish hook

end ObservedTask

/-- `NativeObservedFuture::poll`: publishes the value, or marks the panic and resumes it. -/
def NativeObservedFuture.poll : TaskM T Out (PollResult Unit) := do
  match ← perform .pollFuture with
  | .pending => return .pending
  | .ready value =>
    perform (.publish value)
    return .ready ()
  | .panicked =>
    perform .storePanicked
    return .panicked

/-- The future that `spawn_task` hands to an engine. -/
def engineFuture : TaskM T Out (PollResult Unit) := do
  match ← perform .pollFuture with
  | .pending => return .pending
  | .ready value =>
    perform (.publish value)
    return .ready ()
  | .panicked => return .panicked

def TaskJoinError.ofJoinError : JoinError → TaskJoinError
  | .cancelled => .cancelled
  | .panic => .panic

/-- `poll_mode` in the native mode. -/
def pollNative : TaskM T T (Poll (Except TaskJoinError T)) := do
  match ← perform .pollJoin with
  | .pending => return .pending
  | .ready result => return .ready (result.mapError .ofJoinError)

/-- `poll_mode` in the observed native mode. -/
def pollObservedNative : TaskM T Unit (Poll (Except TaskJoinError T)) := do
  match ← perform .pollJoin with
  | .pending => return .pending
  | .ready (.error error) => return .ready (.error (.ofJoinError error))
  | .ready (.ok _) =>
    if ← perform .loadPanicked then return .ready (.error .panic)
    match ← perform .takeOutput with
    | some value => return .ready (.ok value)
    | none => panic "observed task must publish its output"

/-- `poll_mode` in the engine mode. -/
def pollEngine : TaskM T Unit (Poll (Except TaskJoinError T)) := do
  match ← perform .pollControl with
  | .pending => return .pending
  | .ready .finished =>
    match ← perform .takeOutput with
    | some value => return .ready (.ok value)
    | none => panic "finished task must publish its output"
  | .ready .cancelled => return .ready (.error .cancelled)
  | .ready .panicked => return .ready (.error .panic)

/-- A handle remembers what it has reported. -/
structure TaskHandle where
  requested : Bool := false
  resolved : Bool := false
deriving DecidableEq, Repr

def isReady {α : Type} : Poll α → Bool
  | .pending => false
  | .ready _ => true

namespace TaskHandle

/-- `poll` of `spawn_task`'s handle. Only the observed native mode has a task id to report. -/
def poll {α : Type} (observed : Option UInt64) (pollMode : TaskM T Out (Poll α)) (self : TaskHandle) :
    TaskM T Out (Poll α × TaskHandle) := do
  match observed with
  | some task => if !self.requested then reportTo (← perform .taskObserverHook) (.joinRequested task)
  | none => pure ()
  let outcome ← pollMode
  let requested := self.requested || observed.isSome
  if isReady outcome && !self.resolved then
    match observed with
    | some task => reportTo (← perform .taskObserverHook) (.joinResolved task)
    | none => pure ()
    return (outcome, { requested, resolved := true })
  return (outcome, { self with requested })

/-- `poll` of the handle of a `TaskSet` task, which reads the hook once. -/
def pollTaskSet (task : UInt64) (self : TaskHandle) : TaskM T Out (Poll Unit × TaskHandle) := do
  let hook ← perform .taskObserverHook
  if !self.requested then reportTo hook (.joinRequested task)
  let finished ← perform .pollCompletion
  if finished && !self.resolved then
    reportTo hook (.joinResolved task)
    return (.ready (), { requested := true, resolved := true })
  return (if finished then .ready () else .pending, { self with requested := true })

end TaskHandle

/-- What an executor knows of a task. -/
inductive Life (Out : Type) where
  | running (aborting : Bool)
  | ended (result : Except JoinError Out)
deriving Repr

namespace Life

/-- The executor has polled the future. -/
def polled : PollResult Out → Life Out → Life Out
  | .pending, life => life
  | .ready value, .running _ => .ended (.ok value)
  | .panicked, .running _ => .ended (.error .panic)
  | _, .ended result => .ended result

def abort : Life Out → Life Out
  | .running _ => .running true
  | .ended result => .ended result

/-- An abort takes effect. -/
def cancel : Life Out → Option (Life Out)
  | .running true => some (.ended (.error .cancelled))
  | _ => none

def isRunning : Life Out → Bool
  | .running _ => true
  | .ended _ => false

def join : Life Out → Poll (Except JoinError Out)
  | .running _ => .pending
  | .ended result => .ready result

def control : Life Out → Poll TaskControlState
  | .running _ => .pending
  | .ended (.ok _) => .ready .finished
  | .ended (.error .cancelled) => .ready .cancelled
  | .ended (.error .panic) => .ready .panicked

end Life

/-- One task: its executor, the slot and the flag that it shares with its handle, and what was reported. -/
structure World (T Out : Type) where
  life : Life Out := .running false
  output : Option T := none
  panicked : Bool := false
  completed : Bool := false
  trace : List TaskEvent := []

/-- One effect, with a task observer hook installed. What the future does is left to the schedule. -/
def World.answer (world : World T Out) : (effect : Effect T Out) → PollResult T → Option (effect.Reply × World T Out)
  | .taskObserverHook, _ => some (true, world)
  | .report event, _ => some ((), { world with trace := world.trace ++ [event] })
  | .pollFuture, future => some (future, world)
  | .publish value, _ => some ((), { world with output := some value })
  | .takeOutput, _ => some (world.output, { world with output := none })
  | .storePanicked, _ => some ((), { world with panicked := true })
  | .loadPanicked, _ => some (world.panicked, world)
  | .complete, _ => some ((), { world with completed := true })
  | .pollCompletion, _ => some (world.completed, world)
  | .pollJoin, _ => some (world.life.join, world)
  | .pollControl, _ => some (world.life.control, world)
  | .finish result, _ => some ((), { world with life := .ended result })
  | .applyAbort, _ =>
      match world.life.cancel with
      | some life => some (true, { world with life })
      | none => some (false, world)
  | .abort, _ => some ((), { world with life := world.life.abort })
  | .panic _, _ => none

/-- Perform the effects of one poll, in which the future does this. -/
def World.handle (future : PollResult T) (effect : Effect T Out) (world : World T Out) :
    Option (effect.Reply × World T Out) := world.answer effect future

/-- How `spawn_task` has a future run, and how its handle joins it. -/
structure Mode (T Out Wrapper : Type) where
  poll : Wrapper → TaskM T Out (PollResult Out × Wrapper)
  join : TaskHandle → TaskM T Out (Poll (Except TaskJoinError T) × TaskHandle)

/-- Tokio runs the future itself. -/
def native : Mode T T Unit where
  poll _ := do return (← perform .pollFuture, ())
  join := TaskHandle.poll none pollNative

/-- Tokio runs an `ObservedTask` around a `NativeObservedFuture`. -/
def observedNative (task : UInt64) : Mode T Unit ObservedTask where
  poll observed := do
    match ← observed.poll NativeObservedFuture.poll with
    | (.pending, observed) => return (.pending, observed)
    | (.ready _, observed) => return (.ready (), observed)
  join := TaskHandle.poll (some task) pollObservedNative

/-- The engine runs a future that publishes the output. -/
def engine : Mode T Unit Unit where
  poll _ := do return (← engineFuture, ())
  join := TaskHandle.poll none pollEngine

/-- A spawned task with its handle. -/
structure Spawned (T Out Wrapper : Type) where
  world : World T Out := {}
  wrapper : Wrapper
  handle : TaskHandle := {}

inductive Action (T : Type) where
  /-- The executor polls the task, and its future does this. -/
  | poll (future : PollResult T)
  | abort
  /-- An abort takes effect. -/
  | cancel
  /-- The handle is polled. -/
  | join
deriving DecidableEq, Repr

namespace Spawned

variable {Wrapper : Type}

/-- One step of the executor or of `abort`. -/
def step (mode : Mode T Out Wrapper) (spawned : Spawned T Out Wrapper) : Action T → Option (Spawned T Out Wrapper)
  | .poll future =>
      if spawned.world.life.isRunning then
        match (mode.poll spawned.wrapper).run (World.handle future) spawned.world with
        | (some (polled, wrapper), world) =>
            some { spawned with world := { world with life := world.life.polled polled }, wrapper }
        | (none, _) => none
      else none
  | .abort => some { spawned with world := { spawned.world with life := spawned.world.life.abort } }
  | .cancel => spawned.world.life.cancel.map fun life => { spawned with world := { spawned.world with life } }
  | .join => none

/-- The answers of the handle, up to the first that is ready. A poll that panics answers nothing. -/
def joins (mode : Mode T Out Wrapper) : Spawned T Out Wrapper → List (Action T) →
    List (Option (Poll (Except TaskJoinError T)))
  | _, [] => []
  | spawned, .join :: rest =>
      match (mode.join spawned.handle).run (World.handle .pending) spawned.world with
      | (some (.pending, handle), world) => some .pending :: joins mode { spawned with world, handle } rest
      | (some (.ready result, _), _) => [some (.ready result)]
      | (none, _) => [none]
  | spawned, action :: rest =>
      match spawned.step mode action with
      | some next => joins mode next rest
      | none => []

end Spawned

/-- How a task came to be observed. -/
inductive Kind where
  | taskSet
  | dynamic
deriving DecidableEq, Repr

def Kind.registration (task : UInt64) : Kind → TaskEvent
  | .taskSet => .taskRegistered task
  | .dynamic => .dynamicTaskSpawned task

/-- `TaskSet::spawn`, and `spawn_task` under a task observer hook. -/
def register (kind : Kind) (task : UInt64) : TaskM T Unit ObservedTask := do
  reportTo (← perform .taskObserverHook) (kind.registration task)
  return { task, completion := kind == .taskSet }

/-- The future of a `TaskSet` task. -/
def taskSetFuture : TaskM T Unit (PollResult Unit) := do
  match ← perform .pollFuture with
  | .pending => return .pending
  | .ready _ => return .ready ()
  | .panicked => return .panicked

/-- The executor of a task, and the owner of its handle. -/
inductive Role where
  | executor
  | owner
deriving DecidableEq, Repr

inductive Actor where
  | task (observed : ObservedTask)
  /-- The future was dropped. -/
  | cancelled
  | handle (handle : TaskHandle)
deriving DecidableEq, Repr

inductive Operation where
  /-- Poll the task, or its handle. -/
  | poll
  /-- Look for an abort. -/
  | cancel
  | abort
deriving DecidableEq, Repr

/-- The program of an operation. Tokio is done with a dynamic task once it is ready. -/
def start (task : UInt64) : Kind → Actor → Operation → Option (TaskM T Unit Actor)
  | .taskSet, .task observed, .poll => some do return .task (← observed.poll taskSetFuture).2
  | .taskSet, .handle handle, .poll => some do return .handle (← handle.pollTaskSet task).2
  | .dynamic, .task observed, .poll => some do
      let (polled, observed) ← observed.poll NativeObservedFuture.poll
      if isReady polled then perform (.finish (.ok ()))
      return .task observed
  | .dynamic, .task observed, .cancel => some do
      if ← perform .applyAbort then return .cancelled
      return .task observed
  | .dynamic, .handle handle, .poll => some do return .handle (← handle.poll (some task) pollObservedNative).2
  | .dynamic, .handle handle, .abort => some do
      perform .abort
      return .handle handle
  | _, _, _ => none

/-- One task and its handle, which may be polled on another thread than the task. -/
def taskSystem (kind : Kind) (task : UInt64) :
    System (Effect T Unit) Effect.Reply Role Actor Operation (PollResult T) (World T Unit) where
  start _ := start task kind
  answer world _ := world.answer

end Laplace.Model.Tasks
