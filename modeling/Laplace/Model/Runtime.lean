import Laplace.Machine.Program
import Laplace.Model.Probe

/-! # The model runtime's effects

The async model primitives wrap real tokio ones: a method is a program whose effects are the calls that
reach tokio, the atomics of the wrapper, the process-wide id counters, reading a hook slot and calling a
hook. Objects, futures and guards of tokio are named by handles, and so are the wrapper's atomics.

An id counter that is exhausted makes the caller panic; what was already built is dropped first, as
unwinding does.
-/

namespace Laplace.Model.Runtime

open Laplace.Machine

abbrev Handle := ℕ

inductive Poll (α : Type) where
  | pending
  | ready (value : α)
deriving DecidableEq, Repr

def Poll.map {α β : Type} (f : α → β) : Poll α → Poll β
  | .pending => .pending
  | .ready value => .ready (f value)

/-- What a poll comes to where user code may panic in it. -/
inductive PollResult (α : Type) where
  | pending
  | ready (value : α)
  | panicked
deriving DecidableEq, Repr

/-- `u64::MAX`. -/
def u64Max : ℕ := 2 ^ 64 - 1

/-- `u64::saturating_add`. -/
def saturatingAdd (one other : UInt64) : UInt64 := UInt64.ofNat (min (one.toNat + other.toNat) u64Max)

inductive TryAcquireError where
  | closed
  | noPermits
deriving DecidableEq, Repr

inductive TrySendError (Value : Type) where
  | full (value : Value)
  | closed (value : Value)
deriving DecidableEq, Repr

/-- `mpsc::error::TryRecvError`. -/
inductive MpscTryRecvError where
  | empty
  | disconnected
deriving DecidableEq, Repr

/-- `oneshot::error::TryRecvError`. -/
inductive OneshotTryRecvError where
  | empty
  | closed
deriving DecidableEq, Repr

/-- `broadcast::error::RecvError`. -/
inductive BroadcastRecvError where
  | closed
  | lagged (missed : UInt64)
deriving DecidableEq, Repr

/-- `broadcast::error::TryRecvError`. -/
inductive BroadcastTryRecvError where
  | empty
  | closed
  | lagged (missed : UInt64)
deriving DecidableEq, Repr

/-- The boxed tokio futures. A oneshot receiver is polled as an endpoint instead. -/
inductive Awaitable where
  | lock
  | read
  | write
  | acquire
  | notified
  | send
  | recv
  | changed
  | broadcastRecv
deriving DecidableEq, Repr

/-- What the tokio future resolves to. Errors without a payload are `Unit`. -/
abbrev Awaitable.Output (Value : Type) : Awaitable → Type
  | .lock | .read | .write => Handle
  | .acquire => Except Unit Handle
  | .notified => Unit
  | .send => Except Value Unit
  | .recv => Option Value
  | .changed => Except Unit Unit
  | .broadcastRecv => Except BroadcastRecvError Value

/-- The kinds of endpoint that are dropped and cloned. -/
inductive Endpoint where
  | mpscSender
  | mpscReceiver
  | unboundedSender
  | unboundedReceiver
  | oneshotSender
  | oneshotReceiver
  | watchSender
  | watchReceiver
  | broadcastSender
  | broadcastReceiver
deriving DecidableEq, Repr

/-- The calls that reach tokio. -/
inductive Tokio (Value : Type) where
  | mutexNew (value : Value)
  | rwLockNew (value : Value)
  | semaphoreNew (permits : ℕ)
  | notifyNew
  | mpscChannel (buffer : ℕ)
  | unboundedChannel
  | oneshotChannel
  | watchChannel (init : Value)
  | broadcastChannel (capacity : ℕ)
  | lock (mutex : Handle)
  | read (rwLock : Handle)
  | write (rwLock : Handle)
  | acquire (semaphore : Handle)
  | acquireMany (semaphore : Handle) (n : UInt32)
  | notified (notify : Handle)
  | send (sender : Handle) (value : Value)
  | recv (receiver : Handle)
  | unboundedRecv (receiver : Handle)
  | changed (receiver : Handle)
  | broadcastRecv (receiver : Handle)
  | poll (kind : Awaitable) (future : Handle)
  | dropFuture (kind : Awaitable) (future : Handle)
  | tryLock (mutex : Handle)
  | tryRead (rwLock : Handle)
  | tryWrite (rwLock : Handle)
  | tryAcquire (semaphore : Handle)
  | tryAcquireMany (semaphore : Handle) (n : UInt32)
  | dropGuard (kind : AsyncAcquireKind) (guard : Handle)
  | forgetPermit (permit : Handle)
  | addPermits (semaphore : Handle) (n : ℕ)
  | notifyOne (notify : Handle)
  | notifyWaiters (notify : Handle)
  | trySend (sender : Handle) (value : Value)
  | unboundedSend (sender : Handle) (value : Value)
  | tryRecv (receiver : Handle)
  | unboundedTryRecv (receiver : Handle)
  | close (receiver : Handle)
  | unboundedClose (receiver : Handle)
  | oneshotSend (sender : Handle) (value : Value)
  | oneshotTryRecv (receiver : Handle)
  | oneshotPoll (receiver : Handle)
  | oneshotClose (receiver : Handle)
  | watchSend (sender : Handle) (value : Value)
  | watchSubscribe (sender : Handle)
  | broadcastSend (sender : Handle) (value : Value)
  | broadcastSubscribe (sender : Handle)
  | broadcastResubscribe (receiver : Handle)
  | broadcastTryRecv (receiver : Handle)
  | cloneEndpoint (endpoint : Endpoint) (handle : Handle)
  | dropEndpoint (endpoint : Endpoint) (handle : Handle)
  | dropPrimitive (handle : Handle)
deriving DecidableEq, Repr

/-- What a tokio call returns. -/
abbrev Tokio.Reply {Value : Type} : Tokio Value → Type
  | .mutexNew _ | .rwLockNew _ | .semaphoreNew _ | .notifyNew => Handle
  | .mpscChannel _ | .unboundedChannel | .oneshotChannel | .watchChannel _ | .broadcastChannel _ =>
      Handle × Handle
  | .lock _ | .read _ | .write _ | .acquire _ | .acquireMany .. | .notified _ | .send .. | .recv _
  | .unboundedRecv _ | .changed _ | .broadcastRecv _ => Handle
  | .poll kind _ => Poll (kind.Output Value)
  | .dropFuture .. => Unit
  | .tryLock _ | .tryRead _ | .tryWrite _ => Except Unit Handle
  | .tryAcquire _ | .tryAcquireMany .. => Except TryAcquireError Handle
  | .dropGuard .. | .forgetPermit _ | .addPermits .. | .notifyOne _ | .notifyWaiters _ => Unit
  | .trySend .. => Except (TrySendError Value) Unit
  | .unboundedSend .. | .oneshotSend .. | .watchSend .. => Except Value Unit
  | .tryRecv _ | .unboundedTryRecv _ => Except MpscTryRecvError Value
  | .close _ | .unboundedClose _ | .oneshotClose _ => Unit
  | .oneshotTryRecv _ => Except OneshotTryRecvError Value
  | .oneshotPoll _ => Poll (Except Unit Value)
  | .broadcastSend .. => Except Value ℕ
  | .watchSubscribe _ | .broadcastSubscribe _ | .broadcastResubscribe _ | .cloneEndpoint .. => Handle
  | .broadcastTryRecv _ => Except BroadcastTryRecvError Value
  | .dropEndpoint .. | .dropPrimitive _ => Unit

/-- The hook slots of the process. -/
inductive HookSlot where
  | lock
  | notify
  | channel
  | broadcast
deriving DecidableEq, Repr

abbrev Event := Probe.AsyncReport UInt64 UInt64

inductive Effect (Value : Type) where
  | tokio (call : Tokio Value)
  /-- `AtomicU64::new`. -/
  | newAtomic (value : UInt64)
  | load (atomic : Handle)
  | compareExchange (atomic : Handle) (expected new : UInt64)
  | fetchAdd (atomic : Handle) (amount : UInt64)
  /-- `AtomicBool::new(false)`. -/
  | newFlag
  /-- `swap(true)`. -/
  | swapFlag (flag : Handle)
  /-- `fetch_update(checked_add(1))` on `NEXT_ASYNC_LOCK_RESOURCE_ID`. -/
  | nextResource
  /-- `fetch_update(checked_add(1))` on `NEXT_ASYNC_LOCK_WAITER_ID`. -/
  | nextWaiter
  /-- Whether a hook is installed. -/
  | hook (slot : HookSlot)
  | report (event : Event)
  | panic (message : String)
deriving DecidableEq, Repr

abbrev Effect.Reply {Value : Type} : Effect Value → Type
  | .tokio call => call.Reply
  | .newAtomic _ | .newFlag => Handle
  | .load _ | .fetchAdd .. => UInt64
  | .compareExchange .. => Except UInt64 UInt64
  | .swapFlag _ | .hook _ => Bool
  | .nextResource | .nextWaiter => Option UInt64
  | .report _ => Unit
  | .panic _ => Empty

variable {Value : Type}

/-- A computation of the runtime. -/
abbrev RuntimeM (Value : Type) := Program (Effect Value) Effect.Reply

abbrev perform (effect : Effect Value) : RuntimeM Value effect.Reply := Program.perform effect

abbrev tokio (call : Tokio Value) : RuntimeM Value call.Reply := perform (.tokio call)

abbrev report (event : Event) : RuntimeM Value Unit := perform (.report event)

/-- A panic never returns. -/
def panic {α : Type} (message : String) : RuntimeM Value α := .call (.panic message) Empty.elim

/-- `if let Some(hook) = …_hook() { … }`. -/
def withHook (slot : HookSlot) (reports : RuntimeM Value Unit) : RuntimeM Value Unit := do
  if ← perform (.hook slot) then reports

/-- `next_async_lock_resource_id`; `unwind` drops what the caller has already built. -/
def nextAsyncLockResourceId (unwind : RuntimeM Value Unit) : RuntimeM Value UInt64 := do
  match ← perform .nextResource with
  | some id => pure id
  | none =>
    unwind
    panic "laplace: model async resource id namespace exhausted"

/-- `next_async_lock_waiter_id`; `unwind` drops what the caller has already built. -/
def nextAsyncLockWaiterId (unwind : RuntimeM Value Unit) : RuntimeM Value UInt64 := do
  match ← perform .nextWaiter with
  | some id => pure id
  | none =>
    unwind
    panic "laplace: model async waiter id namespace exhausted"

/-- The atomic behind an `AsyncResourceId`. -/
abbrev AsyncResourceId := Handle

namespace AsyncResourceId

def newEager : RuntimeM Value AsyncResourceId := do
  let id ← nextAsyncLockResourceId (pure ())
  perform (.newAtomic id)

def newLazy : RuntimeM Value AsyncResourceId := perform (.newAtomic 0)

def get (self : AsyncResourceId) (unwind : RuntimeM Value Unit) : RuntimeM Value UInt64 := do
  let current ← perform (.load self)
  if current ≠ 0 then return current
  let allocated ← nextAsyncLockResourceId unwind
  match ← perform (.compareExchange self 0 allocated) with
  | .ok _ => pure allocated
  | .error existing => pure existing

end AsyncResourceId

/-- What every future of the runtime keeps: `waiter` is `op` in the channels, and `resolved` is
`acquired` in the mutex and the read-write lock. -/
structure Awaiting where
  resource : UInt64
  waiter : UInt64
  inner : Handle
  requestedEmitted : Bool := false
  resolved : Bool := false
deriving DecidableEq, Repr

namespace Awaiting

/-- Start a future: its id first, then the tokio future. -/
def start (resource : UInt64) (inner : RuntimeM Value Handle) : RuntimeM Value Awaiting := do
  let waiter ← nextAsyncLockWaiterId (pure ())
  return { resource, waiter, inner := ← inner }

/-- The poll of every future: the first pending answer is announced, and so is a ready one unless it
has no event. -/
def poll {Output : Type} (inner : RuntimeM Value (Poll Output)) (announce : Event → RuntimeM Value Unit)
    (requested : Event) (resolved : Output → Option Event) (self : Awaiting) :
    RuntimeM Value (Poll Output × Awaiting) := do
  match ← inner with
  | .pending =>
    if self.requestedEmitted then return (.pending, self)
    announce requested
    return (.pending, { self with requestedEmitted := true })
  | .ready value =>
    match resolved value with
    | some event => announce event
    | none => pure ()
    return (.ready value, { self with resolved := true })

/-- The drop of every boxed future, then of the tokio future in it. -/
def drop (kind : Awaitable) (slot : HookSlot) (dropped : Event) (self : Awaiting) : RuntimeM Value Unit := do
  if self.requestedEmitted && !self.resolved then withHook slot (report dropped)
  tokio (.dropFuture kind self.inner)

end Awaiting

/-- The process around the primitives: what tokio holds, what the hooks recorded, the id counters and
the wrappers' atomics. -/
structure World (Inner : Type) where
  inner : Inner
  trace : List Event := []
  nextResource : UInt64 := 1
  nextWaiter : UInt64 := 1
  atomics : Handle → UInt64 := fun _ => 0
  flags : Handle → Bool := fun _ => false
  nextHandle : Handle := 0
  /-- What each reading of a hook slot finds. -/
  hooked : ℕ → Bool := fun _ => true
  readings : ℕ := 0

/-- `fetch_update` with `checked_add(1)`: the last value of the counter is never handed out. -/
def fetchNext (counter : UInt64) : Option UInt64 × UInt64 :=
  if counter.toNat + 1 < 2 ^ 64 then (some counter, counter + 1) else (none, counter)

namespace World

variable {Inner Choice : Type}

/-- Perform one effect. Tokio's answers come from its own specification, and a hook only records. -/
def answer (spec : Inner → (call : Tokio Value) → Choice → Option (call.Reply × Inner))
    (world : World Inner) : (effect : Effect Value) → Choice → Option (effect.Reply × World Inner)
  | .tokio call, choice =>
      (spec world.inner call choice).map fun (reply, inner) => (reply, { world with inner })
  | .newAtomic value, _ => some (world.nextHandle,
      { world with
        atomics := Function.update world.atomics world.nextHandle value
        nextHandle := world.nextHandle + 1 })
  | .load atomic, _ => some (world.atomics atomic, world)
  | .compareExchange atomic expected new, _ =>
      if world.atomics atomic = expected then
        some (.ok expected, { world with atomics := Function.update world.atomics atomic new })
      else some (.error (world.atomics atomic), world)
  | .fetchAdd atomic amount, _ => some (world.atomics atomic,
      { world with
        atomics := Function.update world.atomics atomic (world.atomics atomic + amount) })
  | .newFlag, _ => some (world.nextHandle,
      { world with
        flags := Function.update world.flags world.nextHandle false
        nextHandle := world.nextHandle + 1 })
  | .swapFlag flag, _ =>
      some (world.flags flag, { world with flags := Function.update world.flags flag true })
  | .nextResource, _ => some ((fetchNext world.nextResource).1,
      { world with nextResource := (fetchNext world.nextResource).2 })
  | .nextWaiter, _ => some ((fetchNext world.nextWaiter).1,
      { world with nextWaiter := (fetchNext world.nextWaiter).2 })
  | .hook _, _ => some (world.hooked world.readings, { world with readings := world.readings + 1 })
  | .report event, _ => some ((), { world with trace := world.trace ++ [event] })
  | .panic _, _ => none

/-- Perform the effects of one thread that runs alone. -/
def handle (spec : Inner → (call : Tokio Value) → Unit → Option (call.Reply × Inner)) (effect : Effect Value)
    (world : World Inner) : Option (effect.Reply × World Inner) := world.answer spec effect ()

end World

/-- Processes that run on one world. Tokio may answer different processes differently. -/
def runtimeSystem {Inner Choice Process Local Operation : Type}
    (start : Process → Local → Operation → Option (RuntimeM Value Local))
    (spec : Process → Inner → (call : Tokio Value) → Choice → Option (call.Reply × Inner)) :
    System (Effect Value) Effect.Reply Process Local Operation Choice (World Inner) where
  start := start
  answer world process effect choice := world.answer (spec process) effect choice

end Laplace.Model.Runtime
