import Laplace.Model.Tasks

/-! # The completion of a task

Inside `TaskCompletion`: a mutex over a flag and one waker. `complete` takes the waker under the mutex and wakes
it after the mutex is free again; a poll stores the waker of its context unless it keeps the one that is there.
Each holds the mutex for one stretch of code, which is one effect here. A waker whose clone panics poisons the
mutex, and every later caller panics on it.
-/

namespace Laplace.Model.Completion

open Laplace.Machine
open Laplace.Model.Runtime (PollResult)
open Laplace.Model.Tasks (TaskEvent TaskHandle)

/-- Wakers and the tasks they wake. `will_wake` may miss, but it never mistakes one task for another. -/
structure Wakers (Waker Task : Type) where
  wakes : Waker → Task
  willWake : Waker → Waker → Bool
  honest : ∀ stored other, willWake stored other = true → wakes stored = wakes other

variable {Waker Task : Type}

structure CompletionState (Waker : Type) where
  finished : Bool := false
  waker : Option Waker := none

namespace CompletionState

/-- What `complete` does under the mutex. -/
def complete (state : CompletionState Waker) : Option Waker × CompletionState Waker :=
  (state.waker, { finished := true, waker := none })

def replaceWaker (wakers : Wakers Waker Task) (state : CompletionState Waker) (waker : Waker) : Bool :=
  match state.waker with
  | some stored => !wakers.willWake stored waker
  | none => true

/-- What a poll does under the mutex. A panic of the clone leaves the state as it was. -/
def poll (wakers : Wakers Waker Task) (state : CompletionState Waker) (waker : Waker) (clonePanics : Bool) :
    PollResult Unit × CompletionState Waker :=
  if state.finished then (.ready (), state)
  else if state.replaceWaker wakers waker then
    if clonePanics then (.panicked, state) else (.pending, { state with waker := some waker })
  else (.pending, state)

end CompletionState

inductive Effect (Waker : Type) where
  | taskObserverHook
  | report (event : TaskEvent)
  /-- The stretch of `complete` under the mutex. -/
  | completeLocked
  | wake (waker : Waker)
  /-- The stretch of `TaskCompletion::poll` under the mutex. -/
  | pollLocked (waker : Waker)

abbrev Effect.Reply : Effect Waker → Type
  | .taskObserverHook => Bool
  | .completeLocked => Option (Option Waker)
  | .pollLocked _ => PollResult Unit
  | .report _ | .wake _ => Unit

abbrev CompletionM (Waker : Type) := Program (Effect Waker) Effect.Reply

abbrev perform (effect : Effect Waker) : CompletionM Waker effect.Reply := Program.perform effect

/-- `if !seen { if let Some(hook) = hook.as_ref() { … } }`. -/
def reportOnce (seen hook : Bool) (event : TaskEvent) : CompletionM Waker Unit :=
  if !seen && hook then perform (.report event) else pure ()

/-- `complete`. The answer says whether it returned; it panics on a poisoned mutex. -/
def complete : CompletionM Waker Bool := do
  match ← perform .completeLocked with
  | none => return false
  | some none => return true
  | some (some waker) =>
    perform (.wake waker)
    return true

/-- `poll` of a `TaskHandle`. -/
def pollHandle (task : UInt64) (waker : Waker) (self : TaskHandle) :
    CompletionM Waker (PollResult Unit × TaskHandle) := do
  let hook ← perform .taskObserverHook
  reportOnce self.requested hook (.joinRequested task)
  let outcome ← perform (.pollLocked waker)
  match outcome with
  | .ready _ =>
    reportOnce self.resolved hook (.joinResolved task)
    return (.ready (), { requested := true, resolved := true })
  | _ => return (outcome, { self with requested := true })

inductive Party where
  | completer
  | owner
deriving DecidableEq, Repr

/-- What a party is left with between its calls. -/
inductive Standing where
  | uncompleted
  /-- `complete` has returned, or has panicked. -/
  | completed (returned : Bool)
  /-- The handle, and what its last poll came to. -/
  | handle (handle : TaskHandle) (last : Option (PollResult Unit))
deriving DecidableEq, Repr

inductive Operation (Waker : Type) where
  | complete
  | poll (waker : Waker)
deriving DecidableEq, Repr

/-- `complete` is called once. -/
def start (task : UInt64) : Standing → Operation Waker → Option (CompletionM Waker Standing)
  | .uncompleted, .complete => some do return .completed (← complete)
  | .handle handle _, .poll waker => some do
      let (outcome, handle) ← pollHandle task waker handle
      return .handle handle (some outcome)
  | _, _ => none

inductive Event (Waker Task : Type) where
  | finished
  | polled (waker : Waker) (answer : PollResult Unit)
  | woken (task : Task)
  | observed (event : TaskEvent)
deriving DecidableEq, Repr

/-- The mutex with its contents, and what happened so far. -/
structure World (Waker Task : Type) where
  state : CompletionState Waker := {}
  poisoned : Bool := false
  trace : List (Event Waker Task) := []

/-- What the schedule decides: whether a hook is installed, and whether a clone panics. -/
structure Choice where
  hook : Bool := false
  clonePanics : Bool := false

/-- One effect. -/
def World.answer (wakers : Wakers Waker Task) (world : World Waker Task) :
    (effect : Effect Waker) → Choice → Option (effect.Reply × World Waker Task)
  | .taskObserverHook, choice => some (choice.hook, world)
  | .report event, _ => some ((), { world with trace := world.trace ++ [.observed event] })
  | .completeLocked, _ =>
      if world.poisoned then some (none, world)
      else
        some (some world.state.complete.1,
          { world with state := world.state.complete.2, trace := world.trace ++ [.finished] })
  | .wake waker, _ => some ((), { world with trace := world.trace ++ [.woken (wakers.wakes waker)] })
  | .pollLocked waker, choice =>
      if world.poisoned then some (.panicked, { world with trace := world.trace ++ [.polled waker .panicked] })
      else
        let (answer, state) := world.state.poll wakers waker choice.clonePanics
        some (answer,
          { state, poisoned := answer == .panicked, trace := world.trace ++ [.polled waker answer] })

/-- The task that completes and the owner of its handle, on threads of their own. -/
def completionSystem (wakers : Wakers Waker Task) (task : UInt64) :
    System (Effect Waker) Effect.Reply Party Standing (Operation Waker) Choice (World Waker Task) where
  start _ := start task
  answer world _ := world.answer wakers

/-- Nothing has happened yet. -/
def initial : System.Config (Effect Waker) Effect.Reply Party Standing (World Waker Task) where
  shared := {}
  program
    | .completer => .done .uncompleted
    | .owner => .done (.handle {} none)

end Laplace.Model.Completion
