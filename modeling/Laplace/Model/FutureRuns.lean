import Laplace.Model.Channels

/-! # Runs of the awaitable operations

Every future of the runtime is a process: it is made, polled any number of times until it is ready, and
dropped at any point; the guard or permit that a ready poll returned is dropped later. Futures of all kinds
live side by side and interleave after every effect, together with other calls that draw ids and report
under them. What the polls answer is left to tokio, which may be anything here.
-/

namespace Laplace.Model.Runtime

open Laplace.Machine

variable {Value : Type}

inductive Future where
  | lock (future : Awaiting)
  | read (future : Awaiting)
  | write (future : Awaiting)
  | acquire (future : ModelSemaphoreAcquire)
  | notified (future : Awaiting)
  | send (future : Awaiting)
  | recv (future : Awaiting)
  | changed (future : Awaiting)
  | broadcastRecv (future : Broadcast.ModelBroadcastRecv)
  | oneshot (receiver : Awaiting)
deriving DecidableEq, Repr

/-- What a ready poll leaves in the caller's hands. -/
inductive Kept where
  | mutexGuard (guard : Guard)
  | readGuard (guard : Guard)
  | writeGuard (guard : Guard)
  | permit (permit : ModelSemaphorePermit)
deriving DecidableEq, Repr

namespace Future

def core : Future → Awaiting
  | .lock future | .read future | .write future | .notified future | .send future | .recv future
  | .changed future | .oneshot future => future
  | .acquire future => future.toAwaiting
  | .broadcastRecv future => future.toAwaiting

/-- Forget the value that a poll returned, if it is not a guard. -/
def forgetValue {α : Type} (wrap : Awaiting → Future) (result : Poll α × Awaiting) :
    Poll (Option Kept) × Future :=
  (result.1.map fun _ => none, wrap result.2)

/-- Keep the guard that a poll returned. -/
def keepGuard (keep : Guard → Kept) (wrap : Awaiting → Future) (result : Poll Guard × Awaiting) :
    Poll (Option Kept) × Future :=
  (result.1.map fun guard => some (keep guard), wrap result.2)

def poll : Future → RuntimeM Value (Poll (Option Kept) × Future)
  | .lock future => do return keepGuard .mutexGuard .lock (← ModelAsyncLock.poll future)
  | .read future => do return keepGuard .readGuard .read (← ModelAsyncRead.poll future)
  | .write future => do return keepGuard .writeGuard .write (← ModelAsyncWrite.poll future)
  | .acquire future => do
      let (answer, future) ← future.poll
      return (answer.map fun
        | .ok permit => some (.permit permit)
        | .error _ => none, .acquire future)
  | .notified future => do return forgetValue .notified (← ModelNotified.poll future)
  | .send future => do return forgetValue .send (← Mpsc.ModelMpscSend.poll future)
  | .recv future => do return forgetValue .recv (← Mpsc.ModelMpscRecv.poll future)
  | .changed future => do return forgetValue .changed (← Watch.ModelWatchChanged.poll future)
  | .broadcastRecv future => do
      let (answer, future) ← future.poll
      return (answer.map fun _ => none, .broadcastRecv future)
  | .oneshot receiver => do return forgetValue .oneshot (← Oneshot.Receiver.poll receiver)

def drop : Future → RuntimeM Value Unit
  | .lock future => ModelAsyncLock.drop future
  | .read future => ModelAsyncRead.drop future
  | .write future => ModelAsyncWrite.drop future
  | .acquire future => future.drop
  | .notified future => ModelNotified.drop future
  | .send future => Mpsc.ModelMpscSend.drop future
  | .recv future => Mpsc.ModelMpscRecv.drop future
  | .changed future => Watch.ModelWatchChanged.drop future
  | .broadcastRecv future => future.drop
  | .oneshot receiver => Oneshot.Receiver.drop receiver

end Future

def Kept.drop : Kept → RuntimeM Value Unit
  | .mutexGuard guard => ModelAsyncMutexGuard.drop guard
  | .readGuard guard => ModelAsyncRwLockReadGuard.drop guard
  | .writeGuard guard => ModelAsyncRwLockWriteGuard.drop guard
  | .permit held => held.drop

/-- What the polls of a future have answered. -/
structure Polls where
  pending : Bool := false
  ready : Bool := false
deriving DecidableEq, Repr

inductive FutureState where
  | unborn
  | live (future : Future) (polls : Polls) (kept : Option Kept)
  | gone (waiter : UInt64) (polls : Polls) (kept : Option Kept)
  /-- Some other call of the runtime, which has returned. -/
  | elsewhere
deriving DecidableEq, Repr

inductive FutureOperation (Value : Type) where
  | lock (self : ModelAsyncMutex)
  | read (self : ModelAsyncRwLock)
  | write (self : ModelAsyncRwLock)
  | acquire (self : ModelAsyncSemaphore)
  | acquireMany (self : ModelAsyncSemaphore) (n : UInt32)
  | notified (self : ModelAsyncNotify)
  | send (self : ChannelEnd) (value : Value)
  | recv (self : ChannelEnd)
  | unboundedRecv (self : ChannelEnd)
  | changed (self : ChannelEnd)
  | broadcastRecv (self : Broadcast.Receiver)
  | oneshot
  | poll
  | drop
  | dropKept
  /-- Another call that draws an id and reports under it. -/
  | elsewhere (slot : HookSlot) (events : UInt64 → List Event)

/-- The waiter or operation whose lifecycle an event belongs to. The release of a guard does not count. -/
def lifecycleId : Event → Option UInt64
  | .requested _ waiter _ | .acquired _ waiter _ | .waiterDropped _ waiter
  | .notifyWaitRequested _ waiter | .notifyWaitResolved _ waiter | .notifyWaiterDropped _ waiter
  | .channelOpRequested _ waiter _ | .channelOpResolved _ waiter _ _ | .channelOpDropped _ waiter
  | .broadcastOpRequested _ waiter _ _ | .broadcastOpResolved _ waiter _ _ _ | .broadcastOpDropped _ waiter =>
      some waiter
  | _ => none

/-- Report some events. -/
def reportAll : List Event → RuntimeM Value Unit
  | [] => pure ()
  | event :: rest => do
      report event
      reportAll rest

/-- Note what a poll answered. -/
def FutureState.polled (polls : Polls) : Poll (Option Kept) × Future → FutureState
  | (.pending, future) => .live future { polls with pending := true } none
  | (.ready kept, future) => .live future { polls with ready := true } kept

/-- A future that was just made. -/
def FutureState.made (future : Future) : FutureState := .live future {} none

/-- The id of a future and what its polls answered, once it is made. -/
def FutureState.life : FutureState → Option (UInt64 × Polls)
  | .live future polls _ => some (future.core.waiter, polls)
  | .gone waiter polls _ => some (waiter, polls)
  | _ => none

/-- The program of an operation. A future is not polled again after it was ready. -/
def futureStart :
    FutureState → FutureOperation Value → Option (RuntimeM Value FutureState)
  | .unborn, .lock self => some do return .made (.lock (← ModelAsyncMutex.lock self))
  | .unborn, .read self => some do return .made (.read (← ModelAsyncRwLock.read self))
  | .unborn, .write self => some do return .made (.write (← ModelAsyncRwLock.write self))
  | .unborn, .acquire self => some do return .made (.acquire (← self.acquire))
  | .unborn, .acquireMany self n => some do return .made (.acquire (← self.acquireMany n))
  | .unborn, .notified self => some do return .made (.notified (← ModelAsyncNotify.notified self))
  | .unborn, .send self value => some do return .made (.send (← Mpsc.Sender.send self value))
  | .unborn, .recv self => some do return .made (.recv (← Mpsc.Receiver.recv self))
  | .unborn, .unboundedRecv self => some do return .made (.recv (← Mpsc.UnboundedReceiver.recv self))
  | .unborn, .changed self => some do return .made (.changed (← Watch.Receiver.changed self))
  | .unborn, .broadcastRecv self => some do return .made (.broadcastRecv (← self.recv))
  | .unborn, .oneshot => some do return .made (.oneshot (← Oneshot.channel).2)
  | .unborn, .elsewhere slot events => some do
      let id ← nextAsyncLockWaiterId (pure ())
      withHook slot (reportAll ((events id).filter fun event =>
        lifecycleId event = some id || lifecycleId event = none))
      return .elsewhere
  | .live future polls _, .poll =>
      if polls.ready then none
      else some do return .polled polls (← future.poll)
  | .live future polls kept, .drop => some do
      future.drop
      return .gone future.core.waiter polls kept
  | .live future polls (some kept), .dropKept => some do
      kept.drop
      return .live future polls none
  | .gone waiter polls (some kept), .dropKept => some do
      kept.drop
      return .gone waiter polls none
  | _, _ => none

/-- The runs of any number of futures over any tokio. -/
def futureSystem {Inner Choice Process : Type}
    (spec : Process → Inner → (call : Tokio Value) → Choice → Option (call.Reply × Inner)) :
    System (Effect Value) Effect.Reply Process FutureState (FutureOperation Value) Choice (World Inner) :=
  runtimeSystem (fun _ => futureStart) spec

end Laplace.Model.Runtime
