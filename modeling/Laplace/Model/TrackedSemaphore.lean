import Mathlib.Logic.Function.Basic
import Laplace.Machine.Program
import Laplace.Model.ProbeEvent

/-! # Uses of tracked semaphores

`acquire` is an async function: polled first, it reads the thread id, then it awaits a permit of the inner semaphore,
which is never closed, and emits the acquisition. Where its future is dropped while it waits, it ends without a permit.
The drop of a permit emits the release with the thread id that the permit kept, and the inner permit is a field, which
drops last. A task may be polled by any thread, and its permit may be dropped by another: the schedule says which
thread a call finds itself on. A semaphore is named by the resource name that its events carry, which is to be no
other semaphore's.
-/

namespace Laplace.Model.TrackedSemaphore

open Laplace.Machine

inductive Effect where
  /-- `current_thread_id`. -/
  | currentThreadId
  /-- Await a permit; the answer is `false` where the future is dropped meanwhile. -/
  | acquireOwned (resource : String)
  /-- Drop the inner permit. -/
  | release (resource : String)
  | emit (event : ProbeEvent)
deriving DecidableEq, Repr

abbrev Effect.Reply : Effect → Type
  | .currentThreadId => UInt64
  | .acquireOwned _ => Bool
  | .release _ | .emit _ => Unit

abbrev SemaphoreM := Program Effect Effect.Reply

abbrev perform (effect : Effect) : SemaphoreM effect.Reply := Program.perform effect

structure TrackedSemaphorePermit where
  resourceName : String
  threadId : UInt64
deriving DecidableEq, Repr

def acquire (resourceName : String) : SemaphoreM (Option TrackedSemaphorePermit) := do
  let threadId ← perform .currentThreadId
  if ← perform (.acquireOwned resourceName) then
    perform (.emit (.semaphoreAcquired threadId resourceName))
    return some { resourceName, threadId }
  else return none

def TrackedSemaphorePermit.drop (permit : TrackedSemaphorePermit) : SemaphoreM Unit := do
  perform (.emit (.semaphoreReleased permit.threadId permit.resourceName))
  perform (.release permit.resourceName)

inductive Operation where
  | acquire (resourceName : String)
  | drop
deriving DecidableEq, Repr

/-- A use has at most one permit. -/
def start : Option TrackedSemaphorePermit → Operation → Option (SemaphoreM (Option TrackedSemaphorePermit))
  | none, .acquire resourceName => some (acquire resourceName)
  | some permit, .drop => some do
      permit.drop
      return none
  | _, _ => none

/-- The inner semaphores, and what has been emitted. -/
structure World where
  /-- `available_permits`. -/
  available : String → ℕ
  trace : List ProbeEvent := []

/-- What the schedule decides for a call. -/
structure Choice where
  threadId : UInt64
  /-- The future is dropped while it waits. -/
  cancels : Bool := false
deriving DecidableEq, Repr

/-- Who gets a permit first is up to the schedule. -/
def World.answer (world : World) : (effect : Effect) → Choice → Option (effect.Reply × World)
  | .currentThreadId, choice => some (choice.threadId, world)
  | .acquireOwned resource, choice =>
      if choice.cancels then some (false, world)
      else if 0 < world.available resource then
        some (true, { world with
          available := Function.update world.available resource (world.available resource - 1) })
      else none
  | .release resource, _ =>
      some ((), { world with
        available := Function.update world.available resource (world.available resource + 1) })
  | .emit event, _ => some ((), { world with trace := world.trace ++ [event] })

/-- The runs of any number of uses. -/
def trackedSemaphores (Use : Type) :
    System Effect Effect.Reply Use (Option TrackedSemaphorePermit) Operation Choice World where
  start _ := start
  answer world _ effect choice := world.answer effect choice

end Laplace.Model.TrackedSemaphore
