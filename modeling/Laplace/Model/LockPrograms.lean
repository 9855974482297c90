import Laplace.Machine.Program
import Laplace.Model.Probe

/-! # Threads that share instrumented locks

A lock is named by the name that its events carry, which is to be the same for every use of it and for no other lock.
The call of a tracked lock reads the thread id, waits for the real lock and emits the acquisition; its guard emits the
release with the id it kept. The call of a model lock has the probe's hook emit the acquisition and waits for the real
lock then; its guard has the hook emit the release. Of either guard the real one is a field, and drops last.

A thread acquires locks and drops guards as its body says, and drops at the end of the body whatever is left. What else
it does between its calls is not seen by the locks. The lock hook is installed throughout, and no engine is. No thread
panics, so that no lock is ever poisoned.
-/

namespace Laplace.Model.LockPrograms

open Laplace.Machine

/-- The call that acquires a lock. -/
inductive Access where
  /-- `TrackedMutex::lock` and `TrackedStdMutex::lock`. -/
  | lock
  /-- `read` of `TrackedRwLock`, `TrackedStdRwLock` and `TrackedParkingLotRwLock`. -/
  | read
  /-- `write` of these three. -/
  | write
  /-- `ModelMutex::lock`. -/
  | modelLock
  /-- `ModelRwLock::read`. -/
  | modelRead
  /-- `ModelRwLock::write`. -/
  | modelWrite
deriving DecidableEq, Repr

namespace Access

def isShared : Access → Bool
  | .read | .modelRead => true
  | .lock | .write | .modelLock | .modelWrite => false

/-- Only readers share a lock. -/
def conflicts (one other : Access) : Bool := !(one.isShared && other.isShared)

/-- Its events come from the lock hook. -/
def isHooked : Access → Bool
  | .modelLock | .modelRead | .modelWrite => true
  | .lock | .read | .write => false

/-- The event of the acquisition. -/
def acquired : Access → Probe.TrackedKind
  | .lock | .modelLock | .modelRead | .modelWrite => .lockAcquired
  | .read => .rwLockReadAcquired
  | .write => .rwLockWriteAcquired

/-- The event of the guard's drop. -/
def released : Access → Probe.TrackedKind
  | .lock | .modelLock | .modelRead | .modelWrite => .lockReleased
  | .read => .rwLockReadReleased
  | .write => .rwLockWriteReleased

end Access

inductive Effect where
  /-- `current_thread_id`. -/
  | currentThreadId
  /-- Wait for the real lock. -/
  | take (resource : String) (access : Access)
  /-- Drop the guard of the real lock. -/
  | give (resource : String) (access : Access)
  | emit (event : ProbeEvent)
deriving DecidableEq, Repr

abbrev Effect.Reply : Effect → Type
  | .currentThreadId => UInt64
  | .take .. | .give .. | .emit _ => Unit

abbrev ThreadM := Program Effect Effect.Reply

abbrev perform (effect : Effect) : ThreadM effect.Reply := Program.perform effect

structure Guard where
  resource : String
  access : Access
  /-- Kept by the guard of a tracked lock. -/
  threadId : Option UInt64
deriving DecidableEq, Repr

namespace ProbeLockHook

def acquire (resource : String) : ThreadM Unit := do
  let threadId ← perform .currentThreadId
  perform (.emit (.lockAcquired threadId resource))

def release (resource : String) : ThreadM Unit := do
  let threadId ← perform .currentThreadId
  perform (.emit (.lockReleased threadId resource))

end ProbeLockHook

/-- A tracked lock emits the acquisition behind the real one, a model lock before it. -/
def acquire (access : Access) (resource : String) : ThreadM Guard :=
  if access.isHooked then do
    ProbeLockHook.acquire resource
    perform (.take resource access)
    return { resource, access, threadId := none }
  else do
    let threadId ← perform .currentThreadId
    perform (.take resource access)
    perform (.emit (access.acquired.event threadId resource))
    return { resource, access, threadId := some threadId }

/-- The release is emitted before the real one. -/
def Guard.drop (origin : Guard) : ThreadM Unit := do
  match origin.threadId with
  | none => ProbeLockHook.release origin.resource
  | some threadId => perform (.emit (origin.access.released.event threadId origin.resource))
  perform (.give origin.resource origin.access)

/-- A step of a thread. -/
inductive Command where
  | acquire (access : Access) (resource : String)
  /-- Drop the guard of this lock. -/
  | drop (resource : String)
deriving DecidableEq, Repr

/-- What a command makes of the guards that its thread has. -/
def Command.program (guards : List Guard) : Command → ThreadM (List Guard)
  | .acquire access resource => do return (← LockPrograms.acquire access resource) :: guards
  | .drop resource =>
      match guards.find? (·.resource == resource) with
      | some guard => do
          guard.drop
          return guards.eraseP (·.resource == resource)
      | none => pure guards

/-- The end of a scope drops the guards that are left, the newest one first. -/
def dropAll : List Guard → ThreadM Unit
  | [] => pure ()
  | guard :: guards => do
      guard.drop
      dropAll guards

/-- The thread, from where it has these guards and is to do these commands. -/
def body (guards : List Guard) : List Command → ThreadM Unit
  | [] => dropAll guards
  | command :: commands => do
      let guards ← command.program guards
      body guards commands

/-- The real locks, and what has been emitted. -/
structure World (Thread : Type) where
  holders : List (Thread × String × Access) := []
  trace : List ProbeEvent := []

namespace World

variable {Thread : Type}

def isFree (world : World Thread) (resource : String) (access : Access) : Bool :=
  world.holders.all fun (_, held, other) => held != resource || !access.conflicts other

variable [DecidableEq Thread]

/-- A thread waits until its lock is free for it. Who gets a lock first is up to the schedule. -/
def answer (threadId : Thread → UInt64) (world : World Thread) (thread : Thread) :
    (effect : Effect) → Option (effect.Reply × World Thread)
  | .currentThreadId => some (threadId thread, world)
  | .take resource access =>
      if world.isFree resource access then
        some ((), { world with holders := (thread, resource, access) :: world.holders })
      else none
  | .give resource access => some ((), { world with holders := world.holders.erase (thread, resource, access) })
  | .emit event => some ((), { world with trace := world.trace ++ [event] })

end World

variable {Thread : Type} [DecidableEq Thread]

abbrev Config (Thread : Type) := System.Config Effect Effect.Reply Thread Unit (World Thread)

def lockPrograms (threadId : Thread → UInt64) :
    System Effect Effect.Reply Thread Unit Empty Unit (World Thread) where
  start _ _ _ := none
  answer world thread effect _ := world.answer threadId thread effect

omit [DecidableEq Thread] in
/-- The threads before their first step. -/
def initially (commands : Thread → List Command) : Config Thread where
  shared := {}
  program thread := body [] (commands thread)

end Laplace.Model.LockPrograms
