import Laplace.Model.AsyncLocks

/-! # Runs of one async lock

The threads of a program work on the acquisitions of one lock: they start a lock future or try without
waiting, poll the future, drop it, and drop the guard. An acquisition is owned by one thread at a time,
so it is one process of the system, and its operations follow each other; operations on different
acquisitions interleave after every effect. Tokio's lock is any that excludes: it may refuse or keep
waiting as it likes, and grants only what is compatible with the guards that are out.
-/

namespace Laplace.Model.Runtime

open Laplace.Machine

variable {Value Process : Type}

/-- How an acquisition uses the lock. -/
inductive LockMode where
  | lock
  | read
  | write
deriving DecidableEq, Repr

namespace LockMode

def kind : LockMode → AsyncAcquireKind
  | .lock => .mutex
  | .read => .rwRead
  | .write => .rwWrite

/-- `lock`, `read` and `write`. -/
def start (self : Primitive) : LockMode → RuntimeM Value Awaiting
  | .lock => ModelAsyncMutex.lock self
  | .read => ModelAsyncRwLock.read self
  | .write => ModelAsyncRwLock.write self

/-- `try_lock`, `try_read` and `try_write`. -/
def attempt (self : Primitive) : LockMode → RuntimeM Value (Except Unit Guard)
  | .lock => ModelAsyncMutex.tryLock self
  | .read => ModelAsyncRwLock.tryRead self
  | .write => ModelAsyncRwLock.tryWrite self

def poll (future : Awaiting) : LockMode → RuntimeM Value (Poll Guard × Awaiting)
  | .lock => ModelAsyncLock.poll future
  | .read => ModelAsyncRead.poll future
  | .write => ModelAsyncWrite.poll future

def dropFuture (future : Awaiting) : LockMode → RuntimeM Value Unit
  | .lock => ModelAsyncLock.drop future
  | .read => ModelAsyncRead.drop future
  | .write => ModelAsyncWrite.drop future

def dropGuard (guard : Guard) : LockMode → RuntimeM Value Unit
  | .lock => ModelAsyncMutexGuard.drop guard
  | .read => ModelAsyncRwLockReadGuard.drop guard
  | .write => ModelAsyncRwLockWriteGuard.drop guard

end LockMode

/-- The lock under observation. -/
inductive LockFlavor where
  | mutex
  | rwLock
deriving DecidableEq, Repr

def LockFlavor.offers : LockFlavor → LockMode → Bool
  | .mutex, mode => mode = .lock
  | .rwLock, mode => mode ≠ .lock

/-- One acquisition: the future, while it lives, and the guard, while it is out. -/
structure Acquisition where
  mode : LockMode
  future : Option Awaiting
  guard : Option Guard
deriving DecidableEq, Repr

inductive LockOperation where
  | start (mode : LockMode)
  | attempt (mode : LockMode)
  | poll
  | dropFuture
  | dropGuard
  /-- Another primitive of the program draws a waiter id. -/
  | drawElsewhere
deriving DecidableEq, Repr

/-- Attach the guard that a poll returned. -/
def Acquisition.polled (mode : LockMode) : Poll Guard × Awaiting → Acquisition
  | (.pending, future) => { mode, future := some future, guard := none }
  | (.ready guard, future) => { mode, future := some future, guard := some guard }

def Acquisition.attempted (mode : LockMode) : Except Unit Guard → Acquisition
  | .ok guard => { mode, future := none, guard := some guard }
  | .error _ => { mode, future := none, guard := none }

/-- The program of an operation. A future is not polled again after it was ready. -/
def lockStart (flavor : LockFlavor) (self : Primitive) :
    Option Acquisition → LockOperation → Option (RuntimeM Value (Option Acquisition))
  | none, .start mode =>
      if flavor.offers mode then
        some do
          let future ← mode.start self
          return some { mode, future := some future, guard := none }
      else none
  | none, .attempt mode =>
      if flavor.offers mode then
        some do
          let result ← mode.attempt self
          return some (Acquisition.attempted mode result)
      else none
  | none, .drawElsewhere =>
      some do
        let _ ← nextAsyncLockWaiterId (pure ())
        return some { mode := .lock, future := none, guard := none }
  | some { mode, future := some future, guard := _ }, .poll =>
      if future.resolved then none
      else
        some do
          let result ← mode.poll future
          return some (Acquisition.polled mode result)
  | some { mode, future := some future, guard }, .dropFuture =>
      some do
        mode.dropFuture future
        return some { mode, future := none, guard }
  | some { mode, future, guard := some guard }, .dropGuard =>
      some do
        mode.dropGuard guard
        return some { mode, future, guard := none }
  | _, _ => none

/-- The guards of the tokio lock that are out. -/
abbrev Holders (Process : Type) := List (Process × LockMode)

/-- Readers share; anything else is alone. -/
def Holders.admits (holders : Holders Process) : LockMode → Bool
  | .read => holders.all fun holder => holder.2 = .read
  | .lock | .write => holders.isEmpty

/-- Grant the lock to a process. -/
def Holders.grant (flavor : LockFlavor) (holders : Holders Process) (process : Process) (mode : LockMode) :
    Option (Holders Process) :=
  if flavor.offers mode && holders.admits mode then some ((process, mode) :: holders) else none

variable [DecidableEq Process]

/-- Tokio's lock, as far as it excludes: the schedule decides whether it grants. -/
def exclusiveLock (flavor : LockFlavor) (process : Process) (holders : Holders Process) :
    (call : Tokio Value) → Bool → Option (call.Reply × Holders Process)
  | .lock _, _ | .read _, _ | .write _, _ => some ((0 : Handle), holders)
  | .poll .lock _, grants =>
      if grants then (holders.grant flavor process .lock).map fun holders => (.ready (0 : Handle), holders)
      else some (.pending, holders)
  | .poll .read _, grants =>
      if grants then (holders.grant flavor process .read).map fun holders => (.ready (0 : Handle), holders)
      else some (.pending, holders)
  | .poll .write _, grants =>
      if grants then (holders.grant flavor process .write).map fun holders => (.ready (0 : Handle), holders)
      else some (.pending, holders)
  | .tryLock _, grants =>
      if grants then (holders.grant flavor process .lock).map fun holders => (.ok (0 : Handle), holders)
      else some (.error (), holders)
  | .tryRead _, grants =>
      if grants then (holders.grant flavor process .read).map fun holders => (.ok (0 : Handle), holders)
      else some (.error (), holders)
  | .tryWrite _, grants =>
      if grants then (holders.grant flavor process .write).map fun holders => (.ok (0 : Handle), holders)
      else some (.error (), holders)
  | .dropGuard _ _, _ => some ((), holders.filter fun holder => holder.1 ≠ process)
  | .dropFuture _ _, _ => some ((), holders)
  | _, _ => none

/-- The runs of one lock. -/
def lockSystem (Value : Type) (flavor : LockFlavor) (self : Primitive) :
    System (Effect Value) Effect.Reply Process (Option Acquisition) LockOperation Bool
      (World (Holders Process)) :=
  runtimeSystem (fun _ => lockStart flavor self) (exclusiveLock flavor)

end Laplace.Model.Runtime
