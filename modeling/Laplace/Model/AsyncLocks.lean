import Laplace.Model.Runtime

/-! # Model async locks

`ModelAsyncMutex`, `ModelAsyncRwLock`, `ModelAsyncSemaphore` and `ModelAsyncNotify` with the futures and
guards they return. The acquisition futures share `Awaiting`, and the non-blocking acquisitions share
`tryGuard`: a member names its tokio call, its kind and how it announces. The semaphore announces
through `hookWithCreated`, which reports its creation on the way.
-/

namespace Laplace.Model.Runtime

variable {Value : Type}

/-- A guard of the mutex or the read-write lock. -/
structure Guard where
  inner : Handle
  resource : UInt64
  waiter : UInt64
deriving DecidableEq, Repr

/-- The guard's drop reports, then tokio's guard is dropped. -/
def Guard.drop (kind : AsyncAcquireKind) (self : Guard) : RuntimeM Value Unit := do
  withHook .lock (report (.released self.resource self.waiter kind))
  tokio (.dropGuard kind self.inner)

/-- A non-blocking acquisition: only a success is reported, under a fresh waiter id. -/
def tryGuard {ε : Type} (resource : AsyncResourceId) (kind : AsyncAcquireKind)
    (announce : UInt64 → Event → RuntimeM Value Unit) (attempt : RuntimeM Value (Except ε Handle)) :
    RuntimeM Value (Except ε Guard) := do
  match ← attempt with
  | .error err => return .error err
  | .ok inner =>
    let resource ← resource.get (tokio (.dropGuard kind inner))
    let waiter ← nextAsyncLockWaiterId (tokio (.dropGuard kind inner))
    announce resource (.acquired resource waiter kind)
    return .ok { inner, resource, waiter }

/-- Report through the lock hook, when there is one. -/
def announceLock (event : Event) : RuntimeM Value Unit := withHook .lock (report event)

/-- A primitive that keeps its id and the tokio primitive: the mutex, the read-write lock and notify. -/
structure Primitive where
  resource : AsyncResourceId
  inner : Handle
deriving DecidableEq, Repr

/-- `new`: the id is allocated at once. -/
def Primitive.new (inner : RuntimeM Value Handle) : RuntimeM Value Primitive := do
  let resource ← AsyncResourceId.newEager
  return { resource, inner := ← inner }

/-- `const_new`: the id is left to the first use. -/
def Primitive.constNew (inner : RuntimeM Value Handle) : RuntimeM Value Primitive := do
  let resource ← AsyncResourceId.newLazy
  return { resource, inner := ← inner }

abbrev ModelAsyncMutex := Primitive

namespace ModelAsyncMutex

def new (value : Value) : RuntimeM Value ModelAsyncMutex := Primitive.new (tokio (.mutexNew value))

def constNew (value : Value) : RuntimeM Value ModelAsyncMutex := Primitive.constNew (tokio (.mutexNew value))

def lock (self : ModelAsyncMutex) : RuntimeM Value Awaiting := do
  let resource ← self.resource.get (pure ())
  Awaiting.start resource (tokio (.lock self.inner))

def tryLock (self : ModelAsyncMutex) : RuntimeM Value (Except Unit Guard) :=
  tryGuard self.resource .mutex (fun _ => announceLock) (tokio (.tryLock self.inner))

end ModelAsyncMutex

/-- The guard that a resolved lock future returns. -/
def Awaiting.guard (self : Awaiting) (inner : Handle) : Guard :=
  { inner, resource := self.resource, waiter := self.waiter }

namespace ModelAsyncLock

def poll (self : Awaiting) : RuntimeM Value (Poll Guard × Awaiting) := do
  let (answer, self) ← self.poll (tokio (.poll .lock self.inner)) announceLock
    (.requested self.resource self.waiter .mutex)
    fun _ => some (.acquired self.resource self.waiter .mutex)
  return (answer.map self.guard, self)

def drop (self : Awaiting) : RuntimeM Value Unit :=
  self.drop .lock .lock (.waiterDropped self.resource self.waiter)

end ModelAsyncLock

def ModelAsyncMutexGuard.drop (self : Guard) : RuntimeM Value Unit := Guard.drop .mutex self

abbrev ModelAsyncRwLock := Primitive

namespace ModelAsyncRwLock

def new (value : Value) : RuntimeM Value ModelAsyncRwLock := Primitive.new (tokio (.rwLockNew value))

def constNew (value : Value) : RuntimeM Value ModelAsyncRwLock :=
  Primitive.constNew (tokio (.rwLockNew value))

def read (self : ModelAsyncRwLock) : RuntimeM Value Awaiting := do
  let resource ← self.resource.get (pure ())
  Awaiting.start resource (tokio (.read self.inner))

def write (self : ModelAsyncRwLock) : RuntimeM Value Awaiting := do
  let resource ← self.resource.get (pure ())
  Awaiting.start resource (tokio (.write self.inner))

def tryRead (self : ModelAsyncRwLock) : RuntimeM Value (Except Unit Guard) :=
  tryGuard self.resource .rwRead (fun _ => announceLock) (tokio (.tryRead self.inner))

def tryWrite (self : ModelAsyncRwLock) : RuntimeM Value (Except Unit Guard) :=
  tryGuard self.resource .rwWrite (fun _ => announceLock) (tokio (.tryWrite self.inner))

end ModelAsyncRwLock

namespace ModelAsyncRead

def poll (self : Awaiting) : RuntimeM Value (Poll Guard × Awaiting) := do
  let (answer, self) ← self.poll (tokio (.poll .read self.inner)) announceLock
    (.requested self.resource self.waiter .rwRead)
    fun _ => some (.acquired self.resource self.waiter .rwRead)
  return (answer.map self.guard, self)

def drop (self : Awaiting) : RuntimeM Value Unit :=
  self.drop .read .lock (.waiterDropped self.resource self.waiter)

end ModelAsyncRead

namespace ModelAsyncWrite

def poll (self : Awaiting) : RuntimeM Value (Poll Guard × Awaiting) := do
  let (answer, self) ← self.poll (tokio (.poll .write self.inner)) announceLock
    (.requested self.resource self.waiter .rwWrite)
    fun _ => some (.acquired self.resource self.waiter .rwWrite)
  return (answer.map self.guard, self)

def drop (self : Awaiting) : RuntimeM Value Unit :=
  self.drop .write .lock (.waiterDropped self.resource self.waiter)

end ModelAsyncWrite

def ModelAsyncRwLockReadGuard.drop (self : Guard) : RuntimeM Value Unit := Guard.drop .rwRead self

def ModelAsyncRwLockWriteGuard.drop (self : Guard) : RuntimeM Value Unit := Guard.drop .rwWrite self

structure ModelAsyncSemaphore where
  resource : AsyncResourceId
  inner : Handle
  initialPermits : ℕ
  createdReported : Handle
deriving DecidableEq, Repr

/-- Whether there is a hook; the first caller that finds one reports the creation. -/
def hookWithCreated (createdReported : Handle) (resource : UInt64) (initialPermits : ℕ) :
    RuntimeM Value Bool := do
  if ← perform (.hook .lock) then
    if !(← perform (.swapFlag createdReported)) then
      report (.semaphoreCreated resource initialPermits)
    return true
  return false

/-- Report through `hookWithCreated`. -/
def announceCreated (createdReported : Handle) (initialPermits : ℕ) (resource : UInt64) (event : Event) :
    RuntimeM Value Unit := do
  if ← hookWithCreated createdReported resource initialPermits then report event

structure ModelSemaphoreAcquire extends Awaiting where
  permits : UInt32
  createdReported : Handle
  initialPermits : ℕ
deriving DecidableEq, Repr

structure ModelSemaphorePermit where
  inner : Option Handle
  resource : UInt64
  waiter : UInt64
  permits : UInt32
deriving DecidableEq, Repr

def Guard.permit (permits : UInt32) (self : Guard) : ModelSemaphorePermit :=
  { inner := some self.inner, resource := self.resource, waiter := self.waiter, permits }

namespace ModelAsyncSemaphore

def new (permits : ℕ) : RuntimeM Value ModelAsyncSemaphore := do
  let resource ← AsyncResourceId.newEager
  let inner ← tokio (.semaphoreNew permits)
  return { resource, inner, initialPermits := permits, createdReported := ← perform .newFlag }

def constNew (permits : ℕ) : RuntimeM Value ModelAsyncSemaphore := do
  let resource ← AsyncResourceId.newLazy
  let inner ← tokio (.semaphoreNew permits)
  return { resource, inner, initialPermits := permits, createdReported := ← perform .newFlag }

def addPermits (self : ModelAsyncSemaphore) (n : ℕ) : RuntimeM Value Unit := do
  tokio (.addPermits self.inner n)
  let resource ← self.resource.get (pure ())
  announceCreated self.createdReported self.initialPermits resource (.permitsAdded resource n)

/-- The future of `acquire` and `acquire_many`. -/
def acquireWith (self : ModelAsyncSemaphore) (permits : UInt32) (inner : RuntimeM Value Handle) :
    RuntimeM Value ModelSemaphoreAcquire := do
  let resource ← self.resource.get (pure ())
  let future ← Awaiting.start resource inner
  return { future with
    permits, createdReported := self.createdReported, initialPermits := self.initialPermits }

def acquire (self : ModelAsyncSemaphore) : RuntimeM Value ModelSemaphoreAcquire :=
  self.acquireWith 1 (tokio (.acquire self.inner))

def acquireMany (self : ModelAsyncSemaphore) (n : UInt32) : RuntimeM Value ModelSemaphoreAcquire :=
  self.acquireWith n (tokio (.acquireMany self.inner n))

def tryAcquireWith (self : ModelAsyncSemaphore) (permits : UInt32)
    (attempt : RuntimeM Value (Except TryAcquireError Handle)) :
    RuntimeM Value (Except TryAcquireError ModelSemaphorePermit) := do
  let result ← tryGuard self.resource (.semaphorePermits permits)
    (announceCreated self.createdReported self.initialPermits) attempt
  return result.map (Guard.permit permits)

def tryAcquire (self : ModelAsyncSemaphore) : RuntimeM Value (Except TryAcquireError ModelSemaphorePermit) :=
  self.tryAcquireWith 1 (tokio (.tryAcquire self.inner))

def tryAcquireMany (self : ModelAsyncSemaphore) (n : UInt32) :
    RuntimeM Value (Except TryAcquireError ModelSemaphorePermit) :=
  self.tryAcquireWith n (tokio (.tryAcquireMany self.inner n))

end ModelAsyncSemaphore

namespace ModelSemaphoreAcquire

/-- A closed semaphore resolves to its error without an event. -/
def poll (self : ModelSemaphoreAcquire) :
    RuntimeM Value (Poll (Except Unit ModelSemaphorePermit) × ModelSemaphoreAcquire) := do
  let kind := AsyncAcquireKind.semaphorePermits self.permits
  let (answer, future) ← self.toAwaiting.poll (tokio (.poll .acquire self.inner))
    (announceCreated self.createdReported self.initialPermits self.resource)
    (.requested self.resource self.waiter kind)
    fun
      | .ok _ => some (.acquired self.resource self.waiter kind)
      | .error _ => none
  return (answer.map (·.map fun inner => (self.guard inner).permit self.permits),
    { self with toAwaiting := future })

def drop (self : ModelSemaphoreAcquire) : RuntimeM Value Unit :=
  self.toAwaiting.drop .acquire .lock (.waiterDropped self.resource self.waiter)

end ModelSemaphoreAcquire

namespace ModelSemaphorePermit

/-- A permit whose tokio permit was taken is dropped silently. -/
def drop (self : ModelSemaphorePermit) : RuntimeM Value Unit := do
  match self.inner with
  | some inner =>
    withHook .lock (report (.released self.resource self.waiter (.semaphorePermits self.permits)))
    tokio (.dropGuard (.semaphorePermits self.permits) inner)
  | none => pure ()

def forget (self : ModelSemaphorePermit) : RuntimeM Value Unit := do
  match self.inner with
  | some inner => tokio (.forgetPermit inner)
  | none => pure ()
  { self with inner := none }.drop

end ModelSemaphorePermit

abbrev ModelAsyncNotify := Primitive

namespace ModelAsyncNotify

def new : RuntimeM Value ModelAsyncNotify := Primitive.new (tokio .notifyNew)

def constNew : RuntimeM Value ModelAsyncNotify := Primitive.constNew (tokio .notifyNew)

def notified (self : ModelAsyncNotify) : RuntimeM Value Awaiting := do
  let resource ← self.resource.get (pure ())
  Awaiting.start resource (tokio (.notified self.inner))

def notifyOne (self : ModelAsyncNotify) : RuntimeM Value Unit := do
  let resource ← self.resource.get (pure ())
  withHook .notify (report (.notifyOne resource))
  tokio (.notifyOne self.inner)

def notifyWaiters (self : ModelAsyncNotify) : RuntimeM Value Unit := do
  let resource ← self.resource.get (pure ())
  withHook .notify (report (.notifyWaiters resource))
  tokio (.notifyWaiters self.inner)

end ModelAsyncNotify

namespace ModelNotified

def poll (self : Awaiting) : RuntimeM Value (Poll Unit × Awaiting) :=
  self.poll (tokio (.poll .notified self.inner)) (fun event => withHook .notify (report event))
    (.notifyWaitRequested self.resource self.waiter)
    fun _ => some (.notifyWaitResolved self.resource self.waiter)

def drop (self : Awaiting) : RuntimeM Value Unit :=
  self.drop .notified .notify (.notifyWaiterDropped self.resource self.waiter)

end ModelNotified

end Laplace.Model.Runtime
