import Laplace.Machine.Program

/-! # The model locks of `std::sync` under a lock hook

`ModelMutex` and `ModelRwLock` with any `LockHook`. Every acquisition and every release of a guard is reported as
one of an exclusive resource, in both modes of the `RwLock`. A process is one use of a lock, from the call to the end
of its guard. The real locks do what `std` documents: they exclude, and a try-operation fails where it would
block.
-/

namespace Laplace.Model.StdLocks

open Laplace.Machine

/-- How a real lock is held. -/
inductive Mode where
  | shared
  | exclusive
deriving DecidableEq, Repr

def Mode.conflicts : Mode → Mode → Bool
  | .shared, .shared => false
  | _, _ => true

/-- The calls of a `LockHook`. -/
inductive LockEvent where
  | acquire (resource : UInt64)
  | release (resource : UInt64)
deriving DecidableEq, Repr

inductive TryLock where
  | acquired (poisoned : Bool)
  | wouldBlock
deriving DecidableEq, Repr

inductive Effect where
  /-- Whether a lock hook is installed. -/
  | lockHook
  /-- Whether a spawn hook is installed. -/
  | spawnHook
  | report (event : LockEvent)
  /-- Wait for the real lock. The reply tells whether it is poisoned. -/
  | take (resource : UInt64) (mode : Mode)
  | tryTake (resource : UInt64) (mode : Mode)
  /-- Drop the guard of the real lock. -/
  | give (resource : UInt64) (mode : Mode) (panicking : Bool)
deriving DecidableEq, Repr

abbrev Effect.Reply : Effect → Type
  | .lockHook | .spawnHook | .take .. => Bool
  | .tryTake .. => TryLock
  | .report _ | .give .. => Unit

abbrev StdLockM := Program Effect Effect.Reply

abbrev perform (effect : Effect) : StdLockM effect.Reply := Program.perform effect

/-- The guard of a lock, which a poisoned lock hands out inside its error. -/
structure Guard where
  resource : UInt64
  mode : Mode
  poisoned : Bool
deriving DecidableEq, Repr

/-- `if let Some(hook) = lock_hook() { … }`. -/
def withLockHook (event : LockEvent) : StdLockM Unit := do
  if ← perform .lockHook then perform (.report event)

/-- An acquisition that is reported before the real attempt. With an engine the attempt must succeed, or the
call panics with the message. -/
def acquire (mode : Mode) (message : String) (resource : UInt64) : StdLockM (Except String Guard) := do
  let hooked ← perform .lockHook
  if hooked then perform (.report (.acquire resource))
  if hooked then
    if ← perform .spawnHook then
      match ← perform (.tryTake resource mode) with
      | .acquired poisoned => return .ok { resource, mode, poisoned }
      | .wouldBlock => return .error message
  return .ok { resource, mode, poisoned := ← perform (.take resource mode) }

/-- An attempt that is reported after the real one, if that succeeded. -/
def tryAcquire (mode : Mode) (resource : UInt64) : StdLockM (Option Guard) := do
  match ← perform (.tryTake resource mode) with
  | .acquired poisoned =>
    withLockHook (.acquire resource)
    return some { resource, mode, poisoned }
  | .wouldBlock => return none

/-- The drop of a guard: the report, unless the thread panics, and then the real guard. -/
def Guard.drop (self : Guard) (panicking : Bool) : StdLockM Unit := do
  if !panicking then withLockHook (.release self.resource)
  perform (.give self.resource self.mode panicking)

namespace ModelMutex

def lock : UInt64 → StdLockM (Except String Guard) :=
  acquire .exclusive "laplace-model-rt lock hook granted a contended mutex"

def tryLock : UInt64 → StdLockM (Option Guard) := tryAcquire .exclusive

end ModelMutex

namespace ModelRwLock

def read : UInt64 → StdLockM (Except String Guard) :=
  acquire .shared "laplace-model-rt lock hook granted a contended rwlock (read)"

def write : UInt64 → StdLockM (Except String Guard) :=
  acquire .exclusive "laplace-model-rt lock hook granted a contended rwlock (write)"

def tryRead : UInt64 → StdLockM (Option Guard) := tryAcquire .shared

def tryWrite : UInt64 → StdLockM (Option Guard) := tryAcquire .exclusive

end ModelRwLock

/-- One use of a lock. -/
inductive Use where
  | idle
  | held (guard : Guard)
  /-- A try-operation found the lock taken. -/
  | failed
  /-- The call panicked. -/
  | panicked (resource : UInt64) (message : String)
  | dropped (guard : Guard) (panicking : Bool)
deriving DecidableEq, Repr

inductive Operation where
  | lock (resource : UInt64)
  | tryLock (resource : UInt64)
  | read (resource : UInt64)
  | write (resource : UInt64)
  | tryRead (resource : UInt64)
  | tryWrite (resource : UInt64)
  | drop (panicking : Bool)
deriving DecidableEq, Repr

def Use.acquired (resource : UInt64) : Except String Guard → Use
  | .ok guard => .held guard
  | .error message => .panicked resource message

def Use.attempted : Option Guard → Use
  | some guard => .held guard
  | none => .failed

/-- The program of an operation. -/
def start : Use → Operation → Option (StdLockM Use)
  | .idle, .lock resource => some do return .acquired resource (← ModelMutex.lock resource)
  | .idle, .tryLock resource => some do return .attempted (← ModelMutex.tryLock resource)
  | .idle, .read resource => some do return .acquired resource (← ModelRwLock.read resource)
  | .idle, .write resource => some do return .acquired resource (← ModelRwLock.write resource)
  | .idle, .tryRead resource => some do return .attempted (← ModelRwLock.tryRead resource)
  | .idle, .tryWrite resource => some do return .attempted (← ModelRwLock.tryWrite resource)
  | .held guard, .drop panicking => some do
      guard.drop panicking
      return .dropped guard panicking
  | _, _ => none

/-- The real locks, and what the hook was told by whom. -/
structure World (Process : Type) where
  holders : List (Process × UInt64 × Mode) := []
  poisoned : UInt64 → Bool := fun _ => false
  trace : List (Process × LockEvent) := []

namespace World

variable {Process : Type} [DecidableEq Process]

omit [DecidableEq Process] in
/-- The real lock can be held in this mode. -/
def isFree (world : World Process) (resource : UInt64) (mode : Mode) : Bool :=
  world.holders.all fun (_, held, other) => held != resource || !mode.conflicts other

omit [DecidableEq Process] in
def hold (world : World Process) (process : Process) (resource : UInt64) (mode : Mode) : World Process :=
  { world with holders := (process, resource, mode) :: world.holders }

omit [DecidableEq Process] in
def record (world : World Process) (process : Process) (event : LockEvent) : World Process :=
  { world with trace := world.trace ++ [(process, event)] }

/-- A thread that panics while it holds the lock exclusively leaves it poisoned. -/
def give (world : World Process) (process : Process) (resource : UInt64) (mode : Mode) (panicking : Bool) :
    World Process :=
  { world with
    holders := world.holders.filter (· ≠ (process, resource, mode))
    poisoned := Function.update world.poisoned resource
      (world.poisoned resource || (panicking && mode == .exclusive)) }

/-- One effect. The lock hook is installed, and its `acquire` returns only when it grants; with an engine so is the
spawn hook, which may otherwise come and go. -/
def answer (grants : List LockEvent → UInt64 → Bool) (engine : Bool) (world : World Process) (process : Process) :
    (effect : Effect) → Bool → Option (effect.Reply × World Process)
  | .lockHook, _ => some (true, world)
  | .spawnHook, installed => some (engine || installed, world)
  | .report (.acquire resource), _ =>
      if grants (world.trace.map Prod.snd) resource then some ((), world.record process (.acquire resource)) else none
  | .report (.release resource), _ => some ((), world.record process (.release resource))
  | .take resource mode, _ =>
      if world.isFree resource mode then some (world.poisoned resource, world.hold process resource mode) else none
  | .tryTake resource mode, _ =>
      if world.isFree resource mode then
        some (.acquired (world.poisoned resource), world.hold process resource mode)
      else some (.wouldBlock, world)
  | .give resource mode panicking, _ => some ((), world.give process resource mode panicking)

end World

/-- Any number of uses of any locks. -/
def stdLocks {Process : Type} [DecidableEq Process] (grants : List LockEvent → UInt64 → Bool) (engine : Bool) :
    System Effect Effect.Reply Process Use Operation Bool (World Process) where
  start _ := start
  answer world process := world.answer grants engine process

/-- One effect of a thread that runs undisturbed, with no engine. -/
def observe (hooked : Bool) : (effect : Effect) → List Effect → Option (effect.Reply × List Effect)
  | .lockHook, past => some (hooked, past)
  | .spawnHook, past => some (false, past)
  | .report event, past => some ((), past ++ [.report event])
  | .take resource mode, past => some (false, past ++ [.take resource mode])
  | .tryTake resource mode, past => some (.acquired false, past ++ [.tryTake resource mode])
  | .give resource mode panicking, past => some ((), past ++ [.give resource mode panicking])

/-- What a program asks of the hook and of the real locks. -/
def performs {α : Type} (hooked : Bool) (program : StdLockM α) : List Effect := (program.run (observe hooked) []).2

/-- A step of a thread that uses `ModelRwLock`s. -/
inductive Command where
  | read (resource : UInt64)
  | write (resource : UInt64)
  /-- Drop the guard of this lock. -/
  | drop (resource : UInt64)
deriving DecidableEq, Repr

/-- The guards of a thread after a call. -/
def keep (guards : List Guard) : Except String Guard → List Guard
  | .ok guard => guard :: guards
  | .error _ => guards

def Command.program (guards : List Guard) : Command → StdLockM (List Guard)
  | .read resource => do return keep guards (← ModelRwLock.read resource)
  | .write resource => do return keep guards (← ModelRwLock.write resource)
  | .drop resource =>
      match guards.find? (·.resource == resource) with
      | some guard => do
          guard.drop false
          return guards.erase guard
      | none => pure guards

structure ThreadState where
  commands : List Command
  guards : List Guard := []
deriving DecidableEq, Repr

/-- A guard that is in the way of what is asked: the hook grants a resource to one guard at a time, a real lock
those that do not conflict. -/
def Guard.blocks (self : Guard) : Effect → Bool
  | .report (.acquire resource) => self.resource == resource
  | .take resource mode => self.resource == resource && mode.conflicts self.mode
  | _ => false

section Threads

variable {Thread : Type}

/-- A thread waits for another one whose guard is in the way. -/
def waits (hooked : Bool) (state : Thread → ThreadState) (one other : Thread) : Bool :=
  match (state one).commands with
  | [] => false
  | command :: _ =>
      (performs hooked (command.program (state one).guards)).any fun effect =>
        (state other).guards.any (·.blocks effect)

variable [Fintype Thread] [DecidableEq Thread]

/-- A thread that waits for nobody takes its next step. With a hook, every read and every write is an exclusive
acquisition; without one, the real locks decide. -/
def threadStep (hooked : Bool) (state : Thread → ThreadState) (thread : Thread) : Option (Thread → ThreadState) :=
  match (state thread).commands with
  | [] => none
  | command :: commands =>
      if ∀ other, waits hooked state thread other = false then
        ((command.program (state thread).guards).run (observe hooked) []).1.map fun guards =>
          Function.update state thread { commands, guards }
      else none

end Threads

end Laplace.Model.StdLocks
