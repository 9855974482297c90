import Laplace.Machine.Program
import Laplace.Model.Probe

/-! # The captured exclusive locks

`ModelMutex` with the probe lock hook, `TrackedStdMutex` and `TrackedMutex`. Each wraps a real mutex and
reports an acquisition and a release of its own; the three place these reports differently around the real
lock. A process is one use of the lock by some OS thread, from the call to the end of the guard. The
real mutex excludes; who gets it, and when a tokio future is ready, is up to the schedule.
-/

namespace Laplace.Model.Locking

open Laplace.Machine

inductive TryLock where
  | acquired (poisoned : Bool)
  | wouldBlock
deriving DecidableEq, Repr

inductive Effect where
  /-- `current_thread_id`. -/
  | currentThreadId
  /-- Whether a lock hook is installed. -/
  | lockHook
  /-- Whether a spawn hook is installed. -/
  | spawnHook
  /-- `std::sync::Mutex::lock`, which tells whether the mutex is poisoned. -/
  | lock
  | tryLock
  /-- Poll tokio's lock future. -/
  | pollLock
  | dropLock
  /-- Drop the guard of the real mutex. -/
  | unlock (panicking : Bool)
  | emit (event : ProbeEvent)
  | panic (message : String)
deriving DecidableEq, Repr

abbrev Effect.Reply : Effect → Type
  | .currentThreadId => UInt64
  | .lockHook | .spawnHook | .lock | .pollLock => Bool
  | .tryLock => TryLock
  | .dropLock | .unlock _ | .emit _ => Unit
  | .panic _ => Empty

abbrev MutexM := Program Effect Effect.Reply

abbrev perform (effect : Effect) : MutexM effect.Reply := Program.perform effect

/-- A panic never returns. -/
def panic {α : Type} (message : String) : MutexM α := .call (.panic message) Empty.elim

namespace ProbeLockHook

def acquire (resource : UInt64) : MutexM Unit := do
  let threadId ← perform .currentThreadId
  perform (.emit (.lockAcquired threadId (Probe.resourceName resource)))

def release (resource : UInt64) : MutexM Unit := do
  let threadId ← perform .currentThreadId
  perform (.emit (.lockReleased threadId (Probe.resourceName resource)))

end ProbeLockHook

/-- `if let Some(hook) = lock_hook() { … }`. -/
def withLockHook (reports : MutexM Unit) : MutexM Unit := do
  if ← perform .lockHook then reports

/-- The lock under observation. -/
inductive Wrapper where
  | modelMutex (resource : UInt64)
  | trackedStdMutex (resourceName : String)
  | trackedMutex (resourceName : String)
deriving DecidableEq, Repr

def Wrapper.resource : Wrapper → String
  | .modelMutex resource => Probe.resourceName resource
  | .trackedStdMutex resourceName | .trackedMutex resourceName => resourceName

/-- A guard. The tracked ones keep the thread id of the acquisition. -/
inductive Guard where
  | model (poisoned : Bool)
  | tracked (threadId : UInt64)
deriving DecidableEq, Repr

namespace ModelMutex

/-- `lock`: reported before the real attempt. A poisoned mutex is held all the same. -/
def lock (resource : UInt64) : MutexM Guard := do
  let hooked ← perform .lockHook
  if hooked then ProbeLockHook.acquire resource
  if hooked then
    if ← perform .spawnHook then
      match ← perform .tryLock with
      | .acquired poisoned => return .model poisoned
      | .wouldBlock => panic "laplace-model-rt lock hook granted a contended mutex"
  return .model (← perform .lock)

/-- `try_lock`: reported after the real attempt. -/
def tryLock (resource : UInt64) : MutexM (Option Guard) := do
  match ← perform .tryLock with
  | .acquired poisoned =>
    withLockHook (ProbeLockHook.acquire resource)
    return some (.model poisoned)
  | .wouldBlock => return none

/-- A guard that is dropped while the thread panics reports nothing. -/
def dropGuard (resource : UInt64) (panicking : Bool) : MutexM Unit := do
  if !panicking then withLockHook (ProbeLockHook.release resource)
  perform (.unlock panicking)

end ModelMutex

/-- The drop of a tracked guard: the report, then the real guard. -/
def dropTracked (resourceName : String) (threadId : UInt64) (panicking : Bool) : MutexM Unit := do
  perform (.emit (.lockReleased threadId resourceName))
  perform (.unlock panicking)

/-- `TrackedStdMutex::lock`. A poisoned mutex makes the caller panic, which drops the real guard. -/
def TrackedStdMutex.lock (resourceName : String) : MutexM Guard := do
  let threadId ← perform .currentThreadId
  if ← perform .lock then
    perform (.unlock true)
    panic "called `Result::unwrap()` on an `Err` value: PoisonError \x7b .. \x7d"
  perform (.emit (.lockAcquired threadId resourceName))
  return .tracked threadId

/-- One use of the lock. -/
inductive Use where
  | idle
  /-- The future of `TrackedMutex::lock`, with the thread id once it was polled. -/
  | future (threadId : Option UInt64)
  | held (guard : Guard)
  | failed
  | dropped (panicking : Bool)
deriving DecidableEq, Repr

/-- Poll the future of `TrackedMutex::lock`: the first poll reads the thread id. -/
def TrackedMutex.poll (resourceName : String) (threadId : Option UInt64) : MutexM Use := do
  let threadId ← match threadId with
    | some threadId => pure threadId
    | none => perform .currentThreadId
  if ← perform .pollLock then
    perform (.emit (.lockAcquired threadId resourceName))
    return .held (.tracked threadId)
  return .future (some threadId)

inductive Operation where
  | lock
  | tryLock
  | poll
  | cancel
  | drop (panicking : Bool)
deriving DecidableEq, Repr

def Use.attempted : Option Guard → Use
  | some guard => .held guard
  | none => .failed

/-- The program of an operation. -/
def start : Wrapper → Use → Operation → Option (MutexM Use)
  | .modelMutex resource, .idle, .lock => some do return .held (← ModelMutex.lock resource)
  | .modelMutex resource, .idle, .tryLock => some do return .attempted (← ModelMutex.tryLock resource)
  | .modelMutex resource, .held _, .drop panicking => some do
      ModelMutex.dropGuard resource panicking
      return .dropped panicking
  | .trackedStdMutex resourceName, .idle, .lock => some do return .held (← TrackedStdMutex.lock resourceName)
  | .trackedMutex _, .idle, .lock => some (pure (.future none))
  | .trackedMutex resourceName, .future threadId, .poll => some (TrackedMutex.poll resourceName threadId)
  | .trackedMutex _, .future none, .cancel => some (pure .failed)
  | .trackedMutex _, .future (some _), .cancel => some do
      perform .dropLock
      return .failed
  | .trackedStdMutex resourceName, .held (.tracked threadId), .drop panicking
  | .trackedMutex resourceName, .held (.tracked threadId), .drop panicking => some do
      dropTracked resourceName threadId panicking
      return .dropped panicking
  | _, _, _ => none

/-- The real mutex, the thread ids and what the sink recorded. -/
structure World (Thread Process : Type) where
  holder : Option Process := none
  poisoned : Bool := false
  probeThreadId : Thread → Option UInt64 := fun _ => none
  nextImplicitThreadId : UInt64
  trace : List ProbeEvent := []

namespace World

variable {Thread Process : Type} [DecidableEq Thread]

/-- `current_thread_id`: the thread-local id, else the next implicit one. -/
def currentThreadId (world : World Thread Process) (thread : Thread) : UInt64 × World Thread Process :=
  match world.probeThreadId thread with
  | some id => (id, world)
  | none =>
      (world.nextImplicitThreadId,
        { world with
          nextImplicitThreadId := world.nextImplicitThreadId + 1
          probeThreadId := Function.update world.probeThreadId thread (some world.nextImplicitThreadId) })

/-- One effect. The real mutex is granted only while nobody holds it; the probe lock hook is installed and
no spawn hook is. -/
def answer (thread : Process → Thread) (world : World Thread Process) (process : Process) :
    (effect : Effect) → Bool → Option (effect.Reply × World Thread Process)
  | .currentThreadId, _ => some (world.currentThreadId (thread process))
  | .lockHook, _ => some (true, world)
  | .spawnHook, _ => some (false, world)
  | .lock, _ =>
      if world.holder.isNone then some (world.poisoned, { world with holder := some process }) else none
  | .tryLock, grants =>
      if grants then
        if world.holder.isNone then
          some (.acquired world.poisoned, { world with holder := some process })
        else none
      else some (.wouldBlock, world)
  | .pollLock, grants =>
      if grants then
        if world.holder.isNone then some (true, { world with holder := some process }) else none
      else some (false, world)
  | .dropLock, _ => some ((), world)
  | .unlock panicking, _ =>
      some ((), { world with holder := none, poisoned := world.poisoned || panicking })
  | .emit event, _ => some ((), { world with trace := world.trace ++ [event] })
  | .panic _, _ => none

end World

/-- The runs of one exclusive lock. Several uses may belong to one OS thread. -/
def lockingSystem {Thread Process : Type} [DecidableEq Thread] (wrapper : Wrapper) (thread : Process → Thread) :
    System Effect Effect.Reply Process Use Operation Bool (World Thread Process) where
  start _ := start wrapper
  answer world process := world.answer thread process

end Laplace.Model.Locking
